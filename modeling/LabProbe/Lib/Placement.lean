import LabProbe.Lib.Dict
import Mathlib.Data.List.Nodup
import Mathlib.Data.List.Perm.Subperm

/-!
# Bringing values to their places

A table holds a value under each of its keys, and every value takes up a place.
It is brought into the shape of a plan by a queue of acts: a value that the
table lacks or has otherwise is put, a key that is not in the plan is removed.
A value is refused while another key has its place. Entries that are not ours
are never removed. A few acts are taken from the front of the queue at a time,
and what the table then still asks for is added behind the others.

The table reaches the plan exactly when every value of it can be given its
place in the end: whatever holds the place is removed, or can be given its own.
Values that hold each other's places in a circle never get there.
-/

namespace Placement

variable {κ ν σ : Type}

structure Plan (κ ν σ : Type) where
  wanted : List (κ × ν)
  place : ν → σ
  /-- Whether the value held under a key does for the one that is wanted. -/
  settled : κ → ν → Bool
  ours : κ × ν → Bool

inductive Act (κ ν : Type) where
  | put (e : κ × ν)
  | remove (k : κ)

structure Work (κ ν : Type) where
  held : List (κ × ν)
  queue : List (Act κ ν)

/-- A key comes once, no two values have one place, and a value does where it is
the one that is wanted, and only at its place. -/
structure Plan.Sound (p : Plan κ ν σ) : Prop where
  nodup : (Dict.keys p.wanted).Nodup
  apart : ∀ e ∈ p.wanted, ∀ e' ∈ p.wanted, p.place e.2 = p.place e'.2 → e.1 = e'.1
  does : ∀ e ∈ p.wanted, p.settled e.1 e.2 = true
  placed : ∀ e ∈ p.wanted, ∀ v, p.settled e.1 v = true → p.place v = p.place e.2
  ours : ∀ e ∈ p.wanted, p.ours e = true

/-- A table without two values at one place, where the keys of the plan are ours. -/
structure Plan.Kept (p : Plan κ ν σ) (held : List (κ × ν)) : Prop where
  nodup : (Dict.keys held).Nodup
  apart : ∀ e ∈ held, ∀ e' ∈ held, p.place e.2 = p.place e'.2 → e.1 = e'.1
  ours : ∀ e ∈ held, e.1 ∈ Dict.keys p.wanted → p.ours e = true

/-- The place of a value of the plan is free, is freed by a removal, or is held
by a key whose own place is cleared. -/
inductive Clears (p : Plan κ ν σ) (held : List (κ × ν)) : κ → Prop where
  | intro {k : κ} {v : ν} (hwanted : (k, v) ∈ p.wanted)
      (hours : ∀ e ∈ held, p.place e.2 = p.place v → e.1 ≠ k → p.ours e = true)
      (hclears : ∀ e ∈ held, p.place e.2 = p.place v → e.1 ≠ k → e.1 ∈ Dict.keys p.wanted →
        Clears p held e.1) : Clears p held k

variable [DecidableEq κ] [DecidableEq σ] {p : Plan κ ν σ} {held : List (κ × ν)} {e : κ × ν} {k : κ}
  {a : Act κ ν} {acts : List (Act κ ν)} {w w' : Work κ ν} {n : Nat}

def Plan.free (p : Plan κ ν σ) (held : List (κ × ν)) (e : κ × ν) : Bool :=
  held.all fun other => other.1 == e.1 || p.place other.2 != p.place e.2

def Plan.act (p : Plan κ ν σ) (held : List (κ × ν)) : Act κ ν → List (κ × ν)
  | .put e => if p.free held e then Dict.set held e.1 e.2 else held
  | .remove k => Dict.erase held k

def Plan.due (p : Plan κ ν σ) (held : List (κ × ν)) : List (κ × ν) :=
  p.wanted.filter fun e => !(Dict.get? held e.1).any (p.settled e.1)

def Plan.surplus (p : Plan κ ν σ) (held : List (κ × ν)) : List (κ × ν) :=
  held.filter fun e => p.ours e && !decide (e.1 ∈ Dict.keys p.wanted)

def Plan.asks (p : Plan κ ν σ) (held : List (κ × ν)) : List (Act κ ν) :=
  (p.due held).map .put ++ (p.surplus held).map fun e => .remove e.1

/-- A value of the plan may be put, and a key removed that is not in it and is ours. -/
def Plan.Legal (p : Plan κ ν σ) (held : List (κ × ν)) : Act κ ν → Prop
  | .put e => e ∈ p.wanted
  | .remove k => k ∉ Dict.keys p.wanted ∧ ∀ e ∈ held, e.1 = k → p.ours e = true

/-- The first acts are done, and what is asked for then is added, in any order,
unless it is in the queue already. -/
structure Plan.Served (p : Plan κ ν σ) (n : Nat) (w w' : Work κ ν) : Prop where
  held : w'.held = (w.queue.take n).foldl p.act w.held
  queue : ∃ added, w'.queue = w.queue.drop n ++ added ∧ added.Nodup ∧
    ∀ a, a ∈ added ↔ a ∈ p.asks w'.held ∧ a ∉ w.queue.drop n

/-- The table is kept, and the queue holds nothing but acts for the plan. -/
structure Plan.Ready (p : Plan κ ν σ) (w : Work κ ν) : Prop where
  kept : p.Kept w.held
  legal : ∀ a ∈ w.queue, p.Legal w.held a

-- ---------------------------------------------------------------------------
-- One act
-- ---------------------------------------------------------------------------

theorem Plan.free_eq_true : p.free held e = true ↔
    ∀ other ∈ held, p.place other.2 = p.place e.2 → other.1 = e.1 := by
  simp only [Plan.free, List.all_eq_true, Bool.or_eq_true, beq_iff_eq, bne_iff_ne]
  exact forall₂_congr fun other _ => by rw [or_iff_not_imp_right, not_not]

theorem Plan.mem_act (h : e ∈ p.act held a) : a = .put e ∨ e ∈ held := by
  cases a with
  | put other =>
    unfold Plan.act at h
    dsimp only at h
    split at h
    · rcases Dict.mem_set h with rfl | h
      · exact .inl rfl
      · exact .inr h
    · exact .inr h
  | remove k => exact .inr (Dict.mem_erase.mp h).1

theorem mem_set_of_ne {v : ν} {other : κ × ν} (h : other ∈ held) (hne : other.1 ≠ k) :
    other ∈ Dict.set held k v := by
  induction held with
  | nil => cases h
  | cons e held ih =>
    obtain ⟨key, value⟩ := e
    simp only [Dict.set]
    rcases List.mem_cons.mp h with rfl | h
    · rw [if_neg hne]
      exact List.mem_cons_self
    · split
      · exact List.mem_cons_of_mem _ h
      · exact List.mem_cons_of_mem _ (ih h)

omit [DecidableEq σ] in
theorem Plan.Sound.eq_of_mem (hp : p.Sound) {v w : ν} (hv : (k, v) ∈ p.wanted)
    (hw : (k, w) ∈ p.wanted) : v = w :=
  Option.some.inj ((Dict.get?_of_mem hp.nodup hv).symm.trans (Dict.get?_of_mem hp.nodup hw))

theorem Plan.get?_act (hp : p.Sound) (ha : p.Legal held a) (he : e ∈ p.wanted) :
    Dict.get? (p.act held a) e.1 = some e.2 ∨ Dict.get? (p.act held a) e.1 = Dict.get? held e.1 := by
  cases a with
  | put other =>
    unfold Plan.act
    dsimp only
    split
    · rw [Dict.get?_set]
      split
      · rename_i hkey
        obtain ⟨key, value⟩ := e
        obtain ⟨key', value'⟩ := other
        obtain rfl : key' = key := hkey
        exact .inl (congrArg some (hp.eq_of_mem ha he))
      · exact .inr rfl
    · exact .inr rfl
  | remove k =>
    have hne : k ≠ e.1 := fun heq => ha.1 (heq ▸ List.mem_map_of_mem he)
    exact .inr (by rw [Plan.act, Dict.get?_erase, if_neg hne])

theorem Plan.get?_put (h : p.free held e = true) : Dict.get? (p.act held (.put e)) e.1 = some e.2 := by
  rw [Plan.act, if_pos h, Dict.get?_set, if_pos rfl]

theorem Plan.Legal.act {b : Act κ ν} (h : p.Legal held a) (hb : p.Legal held b) :
    p.Legal (p.act held b) a := by
  cases a with
  | put e => exact h
  | remove k =>
    refine ⟨h.1, fun e he hkey => ?_⟩
    rcases Plan.mem_act he with rfl | he
    · exact absurd (hkey ▸ List.mem_map_of_mem hb) h.1
    · exact h.2 e he hkey

theorem Plan.Kept.act (h : p.Kept held) (hp : p.Sound) (ha : p.Legal held a) :
    p.Kept (p.act held a) := by
  cases a with
  | put e =>
    unfold Plan.act
    dsimp only
    split
    · rename_i hfree
      rw [Plan.free_eq_true] at hfree
      refine ⟨Dict.nodup_keys_set _ _ h.nodup, ?_, ?_⟩
      · intro a ha b hb hplace
        rcases Dict.mem_set ha with rfl | ha <;> rcases Dict.mem_set hb with rfl | hb
        · rfl
        · exact (hfree b hb hplace.symm).symm
        · exact hfree a ha hplace
        · exact h.apart a ha b hb hplace
      · intro other hother hkey
        rcases Dict.mem_set hother with rfl | hother
        · exact hp.ours e ha
        · exact h.ours other hother hkey
    · exact h
  | remove k =>
    have hsub : ∀ e ∈ p.act held (.remove k), e ∈ held := fun e he => (Dict.mem_erase.mp he).1
    exact {
      nodup := Dict.nodup_keys_filter _ h.nodup
      apart := fun a ha b hb => h.apart a (hsub a ha) b (hsub b hb)
      ours := fun a ha => h.ours a (hsub a ha) }

theorem Clears.act (hp : p.Sound) (ha : p.Legal held a) (h : Clears p held k) :
    Clears p (p.act held a) k := by
  induction h with
  | @intro k v hwanted hours _ ih =>
    refine .intro hwanted (fun other hother hplace hne => ?_) fun other hother hplace hne => ?_
    · rcases Plan.mem_act hother with rfl | hother
      · exact absurd (hp.apart other ha (k, v) hwanted hplace) hne
      · exact hours other hother hplace hne
    · rcases Plan.mem_act hother with rfl | hother
      · exact absurd (hp.apart other ha (k, v) hwanted hplace) hne
      · exact ih other hother hplace hne

theorem Plan.free_act (hp : p.Sound) (ha : p.Legal held a) (he : e ∈ p.wanted)
    (h : p.free held e = true) : p.free (p.act held a) e = true := by
  rw [Plan.free_eq_true] at h ⊢
  intro other hother hplace
  rcases Plan.mem_act hother with rfl | hother
  · exact hp.apart other ha e he hplace
  · exact h other hother hplace

/-- Keys of the plan that stand in each other's way, or in the way of which
something stands that is not ours. -/
def Plan.Stuck (p : Plan κ ν σ) (keys : κ → Prop) (held : List (κ × ν)) : Prop :=
  ∀ k, keys k → ∃ v, (k, v) ∈ p.wanted ∧ ∃ e ∈ held,
    p.place e.2 = p.place v ∧ e.1 ≠ k ∧ (p.ours e = false ∨ keys e.1)

theorem Plan.Stuck.act {keys : κ → Prop} (h : p.Stuck keys held) (hp : p.Sound) (hkept : p.Kept held)
    (ha : p.Legal held a) : p.Stuck keys (p.act held a) := by
  intro k hk
  obtain ⟨v, hwanted, other, hother, hplace, hne, hblocks⟩ := h k hk
  refine ⟨v, hwanted, other, ?_, hplace, hne, hblocks⟩
  cases a with
  | put e =>
    unfold Plan.act
    dsimp only
    split
    · rename_i hfree
      refine mem_set_of_ne hother fun hkey => ?_
      rcases hblocks with hforeign | hstuck
      · rw [hkept.ours other hother (hkey ▸ List.mem_map_of_mem ha)] at hforeign
        cases hforeign
      · -- the value that is put is stuck itself, so that its place is not free
        obtain ⟨w, hw, blocker, hblocker, hat, hnot, -⟩ := h other.1 hstuck
        obtain rfl : w = e.2 := hp.eq_of_mem (hkey ▸ hw) ha
        exact hnot ((Plan.free_eq_true.mp hfree blocker hblocker hat).trans hkey.symm)
    · exact hother
  | remove key =>
    refine Dict.mem_erase.mpr ⟨hother, fun hkey => ?_⟩
    rcases hblocks with hforeign | hstuck
    · rw [ha.2 other hother hkey] at hforeign
      cases hforeign
    · obtain ⟨w, hw, -⟩ := h other.1 hstuck
      have hwanted : other.1 ∈ Dict.keys p.wanted := List.mem_map.mpr ⟨_, hw, rfl⟩
      exact ha.1 (hkey ▸ hwanted)

-- ---------------------------------------------------------------------------
-- What is left to do
-- ---------------------------------------------------------------------------

omit [DecidableEq σ] in
theorem Plan.mem_due : e ∈ p.due held ↔
    e ∈ p.wanted ∧ (Dict.get? held e.1).any (p.settled e.1) = false := by
  simp [Plan.due]

omit [DecidableEq σ] in
theorem Plan.mem_surplus : e ∈ p.surplus held ↔
    e ∈ held ∧ p.ours e = true ∧ e.1 ∉ Dict.keys p.wanted := by
  simp [Plan.surplus]

omit [DecidableEq σ] in
theorem Plan.settled_of_notMem_due (hwanted : e ∈ p.wanted) (h : e ∉ p.due held) :
    ∃ v, Dict.get? held e.1 = some v ∧ p.settled e.1 v = true := by
  have hsettled : (Dict.get? held e.1).any (p.settled e.1) = true := by
    by_contra hunsettled
    exact h (Plan.mem_due.mpr ⟨hwanted, Bool.eq_false_iff.mpr hunsettled⟩)
  exact (Option.any_eq_true _ _).mp hsettled

omit [DecidableEq σ] in
theorem Plan.notMem_due (hp : p.Sound) (h : Dict.get? held e.1 = some e.2) : e ∉ p.due held := by
  intro hdue
  obtain ⟨hwanted, hunsettled⟩ := Plan.mem_due.mp hdue
  rw [h, Option.any_some, hp.does e hwanted] at hunsettled
  cases hunsettled

theorem Plan.due_act (hp : p.Sound) (ha : p.Legal held a) : p.due (p.act held a) ⊆ p.due held := by
  intro e he
  obtain ⟨hwanted, hunsettled⟩ := Plan.mem_due.mp he
  rcases Plan.get?_act hp ha hwanted with hplan | hsame
  · exact absurd he (Plan.notMem_due hp hplan)
  · exact Plan.mem_due.mpr ⟨hwanted, hsame ▸ hunsettled⟩

theorem Plan.surplus_act (ha : p.Legal held a) : p.surplus (p.act held a) ⊆ p.surplus held := by
  intro e he
  obtain ⟨hmem, hours, hkey⟩ := Plan.mem_surplus.mp he
  rcases Plan.mem_act hmem with rfl | hmem
  · exact absurd (List.mem_map_of_mem ha) hkey
  · exact Plan.mem_surplus.mpr ⟨hmem, hours, hkey⟩

omit [DecidableEq σ] in
theorem Plan.legal_asks (hkept : p.Kept held) (h : a ∈ p.asks held) : p.Legal held a := by
  rcases List.mem_append.mp h with h | h
  · obtain ⟨e, he, rfl⟩ := List.mem_map.mp h
    exact (Plan.mem_due.mp he).1
  · obtain ⟨⟨k, v⟩, he, rfl⟩ := List.mem_map.mp h
    obtain ⟨hmem, hours, hkey⟩ := Plan.mem_surplus.mp he
    refine ⟨hkey, fun other hother hsame => ?_⟩
    obtain ⟨key, value⟩ := other
    obtain rfl : key = k := hsame
    have hvalue : value = v := Option.some.inj
      ((Dict.get?_of_mem hkept.nodup hother).symm.trans (Dict.get?_of_mem hkept.nodup hmem))
    rwa [hvalue]

omit [DecidableEq σ] in
theorem Plan.nodup_asks (hp : p.Sound) (hkept : p.Kept held) : (p.asks held).Nodup := by
  have hdue : ((p.due held).map Prod.fst).Nodup := Dict.nodup_keys_filter _ hp.nodup
  have hsurplus : ((p.surplus held).map Prod.fst).Nodup := Dict.nodup_keys_filter _ hkept.nodup
  refine List.Nodup.append ((List.Nodup.of_map _ hdue).map fun _ _ h => Act.put.inj h) ?_ ?_
  · have hremove : (p.surplus held).map (fun e => (Act.remove e.1 : Act κ ν)) =
        ((p.surplus held).map Prod.fst).map .remove := by
      rw [List.map_map]
      rfl
    rw [hremove]
    exact hsurplus.map fun _ _ h => Act.remove.inj h
  · intro a ha hb
    obtain ⟨e, -, rfl⟩ := List.mem_map.mp ha
    obtain ⟨e', -, heq⟩ := List.mem_map.mp hb
    cases heq

/-- In a table without surplus one of the values due finds its place free. -/
theorem Clears.exists_free (hp : p.Sound) (hkept : p.Kept held) (hnone : p.surplus held = [])
    (h : Clears p held k) : ∀ v, (k, v) ∈ p.due held → ∃ e ∈ p.due held, p.free held e = true := by
  induction h with
  | @intro k v hwanted hours _ ih =>
    intro w hdue
    obtain rfl : w = v := hp.eq_of_mem (Plan.mem_due.mp hdue).1 hwanted
    by_cases hfree : p.free held (k, w) = true
    · exact ⟨_, hdue, hfree⟩
    · rw [Plan.free_eq_true] at hfree
      simp only [not_forall] at hfree
      obtain ⟨other, hother, hplace, hne⟩ := hfree
      have hkey : other.1 ∈ Dict.keys p.wanted := by
        by_contra hkey
        have hsurplus := Plan.mem_surplus.mpr ⟨hother, hours other hother hplace hne, hkey⟩
        rw [hnone] at hsurplus
        cases hsurplus
      obtain ⟨⟨_, u⟩, hu, rfl⟩ := List.mem_map.mp hkey
      refine ih other hother hplace hne hkey u ?_
      -- a settled value would be at its own place, which is another one
      by_contra hsettled
      obtain ⟨value, hget, hdoes⟩ := Plan.settled_of_notMem_due hu hsettled
      have hvalue : value = other.2 :=
        Option.some.inj (hget.symm.trans (Dict.get?_of_mem hkept.nodup hother))
      rw [hvalue] at hdoes
      exact hne (hp.apart _ hu _ hwanted ((hp.placed _ hu _ hdoes).symm.trans hplace))

-- ---------------------------------------------------------------------------
-- A few acts
-- ---------------------------------------------------------------------------

theorem Plan.foldl_act {P : List (κ × ν) → Prop} (hacts : ∀ a ∈ acts, p.Legal held a) (hheld : P held)
    (hact : ∀ held a, P held → p.Legal held a → P (p.act held a)) : P (acts.foldl p.act held) := by
  induction acts generalizing held with
  | nil => exact hheld
  | cons a acts ih =>
    obtain ⟨ha, hacts⟩ := List.forall_mem_cons.mp hacts
    exact ih (fun b hb => (hacts b hb).act ha) (hact held a hheld ha)

/-- A value is settled once it is put while its place is free. -/
theorem Plan.notMem_due_foldl (hp : p.Sound) (hacts : ∀ a ∈ acts, p.Legal held a)
    (he : e ∈ p.wanted) (hmem : .put e ∈ acts) (hfree : p.free held e = true) :
    e ∉ p.due (acts.foldl p.act held) := by
  induction acts generalizing held with
  | nil => cases hmem
  | cons a acts ih =>
    obtain ⟨ha, hacts⟩ := List.forall_mem_cons.mp hacts
    have hlegal : ∀ b ∈ acts, p.Legal (p.act held a) b := fun b hb => (hacts b hb).act ha
    rw [List.foldl_cons]
    rcases List.mem_cons.mp hmem with rfl | hmem
    · exact Plan.foldl_act (P := fun held => e ∉ p.due held) hlegal
        (Plan.notMem_due hp (Plan.get?_put hfree)) fun _ _ hnot hb hdue => hnot (Plan.due_act hp hb hdue)
    · exact ih hlegal hmem (Plan.free_act hp ha he hfree)

theorem Plan.notMem_surplus_foldl (hacts : ∀ a ∈ acts, p.Legal held a) (hmem : .remove e.1 ∈ acts) :
    e ∉ p.surplus (acts.foldl p.act held) := by
  induction acts generalizing held with
  | nil => cases hmem
  | cons a acts ih =>
    obtain ⟨ha, hacts⟩ := List.forall_mem_cons.mp hacts
    have hlegal : ∀ b ∈ acts, p.Legal (p.act held a) b := fun b hb => (hacts b hb).act ha
    rw [List.foldl_cons]
    rcases List.mem_cons.mp hmem with rfl | hmem
    · refine Plan.foldl_act (P := fun held => e ∉ p.surplus held) hlegal (fun hsurplus => ?_)
        fun _ _ hnot hb hsurplus => hnot (Plan.surplus_act hb hsurplus)
      exact (Dict.mem_erase.mp (Plan.mem_surplus.mp hsurplus).1).2 rfl
    · exact ih hlegal hmem

-- ---------------------------------------------------------------------------
-- One serving
-- ---------------------------------------------------------------------------

theorem Plan.Served.keeps {P : List (κ × ν) → Prop} (h : p.Served n w w') (hw : p.Ready w)
    (hheld : P w.held) (hact : ∀ held a, P held → p.Legal held a → P (p.act held a)) : P w'.held := by
  rw [h.held]
  exact Plan.foldl_act (fun a ha => hw.legal a (List.mem_of_mem_take ha)) hheld hact

theorem Plan.Served.ready (h : p.Served n w w') (hw : p.Ready w) (hp : p.Sound) : p.Ready w' := by
  have hkept : p.Kept w'.held := h.keeps hw hw.kept fun _ _ hheld ha => hheld.act hp ha
  refine ⟨hkept, fun a ha => ?_⟩
  obtain ⟨added, hqueue, -, hadded⟩ := h.queue
  rw [hqueue] at ha
  rcases List.mem_append.mp ha with ha | ha
  · exact h.keeps (P := fun held => p.Legal held a) hw (hw.legal a (List.mem_of_mem_drop ha))
      fun _ _ hheld hb => hheld.act hb
  · exact Plan.legal_asks hkept ((hadded a).mp ha).1

theorem Plan.Served.due (h : p.Served n w w') (hw : p.Ready w) (hp : p.Sound) :
    p.due w'.held ⊆ p.due w.held :=
  h.keeps (P := fun held => p.due held ⊆ p.due w.held) hw (List.Subset.refl _)
    fun _ _ hheld ha => List.Subset.trans (Plan.due_act hp ha) hheld

theorem Plan.Served.surplus (h : p.Served n w w') (hw : p.Ready w) :
    p.surplus w'.held ⊆ p.surplus w.held :=
  h.keeps (P := fun held => p.surplus held ⊆ p.surplus w.held) hw (List.Subset.refl _)
    fun _ _ hheld ha => List.Subset.trans (Plan.surplus_act ha) hheld

theorem Plan.Served.asked (h : p.Served n w w') (ha : a ∈ p.asks w'.held) : a ∈ w'.queue := by
  obtain ⟨added, hqueue, -, hadded⟩ := h.queue
  rw [hqueue, List.mem_append]
  by_cases hrest : a ∈ w.queue.drop n
  · exact .inl hrest
  · exact .inr ((hadded a).mpr ⟨ha, hrest⟩)

-- ---------------------------------------------------------------------------
-- All servings
-- ---------------------------------------------------------------------------

def Plan.left (p : Plan κ ν σ) (held : List (κ × ν)) : Nat :=
  (p.due held).length + (p.surplus held).length

section
variable {works : Nat → Work κ ν} (hserved : ∀ i, p.Served n (works i) (works (i + 1)))
include hserved

theorem Plan.Served.ready_all (hp : p.Sound) (h : p.Ready (works 0)) (i : Nat) : p.Ready (works i) := by
  induction i with
  | zero => exact h
  | succ i ih => exact (hserved i).ready ih hp

theorem Plan.Served.keeps_all {P : List (κ × ν) → Prop} (hready : ∀ i, p.Ready (works i)) {i : Nat}
    (hheld : P (works i).held) (hact : ∀ held a, P held → p.Legal held a → P (p.act held a)) {j : Nat}
    (hj : i ≤ j) : P (works j).held := by
  induction hj with
  | refl => exact hheld
  | step _ ih => exact (hserved _).keeps (hready _) ih hact

theorem Plan.Served.exists_served (hn : 0 < n) {m i : Nat} (h : (works i).queue[m]? = some a) :
    ∃ j, i ≤ j ∧ a ∈ (works j).queue.take n := by
  induction m using Nat.strongRecOn generalizing i with
  | ind m ih =>
    by_cases hm : m < n
    · exact ⟨i, le_rfl, List.mem_of_getElem? (List.getElem?_take_of_lt hm ▸ h)⟩
    · obtain ⟨added, hqueue, -, -⟩ := (hserved i).queue
      have hlt := (List.getElem?_eq_some_iff.mp h).1
      have hnext : (works (i + 1)).queue[m - n]? = some a := by
        rw [hqueue, List.getElem?_append_left (by rw [List.length_drop]; omega), List.getElem?_drop]
        rwa [Nat.add_sub_cancel' (Nat.le_of_not_lt hm)]
      obtain ⟨j, hj, hmem⟩ := ih (m - n) (by omega) hnext
      exact ⟨j, by omega, hmem⟩

theorem Plan.Served.exists_left_lt (hp : p.Sound) (hn : 0 < n) (hready : ∀ i, p.Ready (works i))
    (hclears : ∀ k ∈ Dict.keys p.wanted, Clears p (works 0).held k) {i : Nat}
    (hleft : p.left (works (i + 1)).held ≠ 0) :
    ∃ j, i + 1 ≤ j ∧ p.left (works j).held < p.left (works (i + 1)).held := by
  have hdues : ∀ {j}, i + 1 ≤ j → p.due (works j).held ⊆ p.due (works (i + 1)).held := fun hj =>
    Plan.Served.keeps_all (P := fun held => p.due held ⊆ p.due (works (i + 1)).held) hserved hready
      (List.Subset.refl _) (fun _ _ hheld ha => List.Subset.trans (Plan.due_act hp ha) hheld) hj
  have hsurpluses : ∀ {j}, i + 1 ≤ j → p.surplus (works j).held ⊆ p.surplus (works (i + 1)).held :=
    fun hj => Plan.Served.keeps_all
      (P := fun held => p.surplus held ⊆ p.surplus (works (i + 1)).held) hserved hready
      (List.Subset.refl _) (fun _ _ hheld ha => List.Subset.trans (Plan.surplus_act ha) hheld) hj
  have hnodupDue : ∀ held, (p.due held).Nodup := fun held =>
    List.Nodup.of_map Prod.fst (Dict.nodup_keys_filter _ hp.nodup)
  have hnodupSurplus : ∀ j, (p.surplus (works j).held).Nodup := fun j =>
    List.Nodup.of_map Prod.fst (Dict.nodup_keys_filter _ (hready j).kept.nodup)
  have hduesLe : ∀ {j}, i + 1 ≤ j →
      (p.due (works j).held).length ≤ (p.due (works (i + 1)).held).length := fun hj =>
    (List.Nodup.subperm (hnodupDue _) (hdues hj)).length_le
  have hsurplusesLe : ∀ {j}, i + 1 ≤ j →
      (p.surplus (works j).held).length ≤ (p.surplus (works (i + 1)).held).length := fun hj =>
    (List.Nodup.subperm (hnodupSurplus _) (hsurpluses hj)).length_le
  have hserves : ∀ {a}, a ∈ p.asks (works (i + 1)).held →
      ∃ j, i + 1 ≤ j ∧ a ∈ (works j).queue.take n := fun ha => by
    obtain ⟨m, hm⟩ := List.mem_iff_getElem?.mp ((hserved i).asked ha)
    exact Plan.Served.exists_served hserved hn hm
  have hacts : ∀ j, ∀ a ∈ (works j).queue.take n, p.Legal (works j).held a := fun j a ha =>
    (hready j).legal a (List.mem_of_mem_take ha)
  by_cases hsurplus : p.surplus (works (i + 1)).held = []
  · -- all of ours is of the plan: a value that finds its place free is put
    have hdue : p.due (works (i + 1)).held ≠ [] := by
      rintro hdue
      simp [Plan.left, hdue, hsurplus] at hleft
    obtain ⟨⟨k, v⟩, he⟩ := List.exists_mem_of_ne_nil _ hdue
    have hclear := Plan.Served.keeps_all (P := fun held => Clears p held k) hserved hready
      (hclears k (List.mem_map_of_mem (Plan.mem_due.mp he).1)) (fun _ _ hheld ha => hheld.act hp ha)
      (Nat.zero_le (i + 1))
    obtain ⟨e, he, hfree⟩ := hclear.exists_free hp (hready _).kept hsurplus v he
    have hwanted := (Plan.mem_due.mp he).1
    obtain ⟨j, hj, hmem⟩ := hserves (List.mem_append_left _ (List.mem_map_of_mem he))
    have hnext : i + 1 ≤ j + 1 := by omega
    have hfreeThen := Plan.Served.keeps_all (P := fun held => p.free held e = true) hserved hready
      hfree (fun _ _ hheld ha => Plan.free_act hp ha hwanted hheld) hj
    have hdone := Plan.notMem_due_foldl hp (hacts j) hwanted hmem hfreeThen
    rw [← (hserved j).held] at hdone
    have hsub := List.Nodup.subperm (hnodupDue _) (hdues hnext)
    have hless : (p.due (works (j + 1)).held).length < (p.due (works (i + 1)).held).length :=
      Nat.lt_of_le_of_ne hsub.length_le fun heq =>
        hdone ((hsub.perm_of_length_le heq.ge).mem_iff.mpr he)
    refine ⟨j + 1, by omega, ?_⟩
    have hrest := hsurplusesLe hnext
    unfold Plan.left
    omega
  · obtain ⟨e, he⟩ := List.exists_mem_of_ne_nil _ hsurplus
    obtain ⟨j, hj, hmem⟩ := hserves (List.mem_append_right _ (List.mem_map_of_mem he))
    have hnext : i + 1 ≤ j + 1 := by omega
    have hdone := Plan.notMem_surplus_foldl (hacts j) hmem
    rw [← (hserved j).held] at hdone
    have hsub := List.Nodup.subperm (hnodupSurplus _) (hsurpluses hnext)
    have hless : (p.surplus (works (j + 1)).held).length < (p.surplus (works (i + 1)).held).length :=
      Nat.lt_of_le_of_ne hsub.length_le fun heq =>
        hdone ((hsub.perm_of_length_le heq.ge).mem_iff.mpr he)
    refine ⟨j + 1, by omega, ?_⟩
    have hrest := hduesLe hnext
    unfold Plan.left
    omega

theorem Plan.Served.exists_left_zero (hp : p.Sound) (hn : 0 < n) (hready : ∀ i, p.Ready (works i))
    (hclears : ∀ k ∈ Dict.keys p.wanted, Clears p (works 0).held k) :
    ∃ i, p.left (works i).held = 0 := by
  have hbelow : ∀ m i, p.left (works (i + 1)).held ≤ m → ∃ j, p.left (works j).held = 0 := by
    intro m
    induction m with
    | zero => exact fun i hle => ⟨i + 1, Nat.le_zero.mp hle⟩
    | succ m ih =>
      intro i hle
      by_cases hzero : p.left (works (i + 1)).held = 0
      · exact ⟨i + 1, hzero⟩
      · obtain ⟨j, hj, hless⟩ := Plan.Served.exists_left_lt hserved hp hn hready hclears hzero
        obtain ⟨j, rfl⟩ : ∃ j', j = j' + 1 := Nat.exists_eq_succ_of_ne_zero (by omega)
        exact ih j (by omega)
  exact hbelow _ 0 le_rfl

theorem Plan.Served.exists_queue_nil (hp : p.Sound) (hn : 0 < n) (hready : ∀ i, p.Ready (works i))
    {i : Nat} (hzero : p.left (works i).held = 0) :
    ∃ j, ∀ m, j ≤ m → p.asks (works m).held = [] ∧ (works m).queue = [] := by
  have hnone : ∀ {held}, p.left held = 0 ↔ p.due held = [] ∧ p.surplus held = [] := by
    simp [Plan.left]
  have hasks : ∀ {m}, i ≤ m → p.asks (works m).held = [] := by
    intro m hm
    obtain ⟨hdue, hsurplus⟩ := Plan.Served.keeps_all
      (P := fun held => p.due held = [] ∧ p.surplus held = []) hserved hready (hnone.mp hzero)
      (fun held a hheld ha => ⟨List.subset_nil.mp (hheld.1 ▸ Plan.due_act hp ha),
        List.subset_nil.mp (hheld.2 ▸ Plan.surplus_act ha)⟩) hm
    rw [Plan.asks, hdue, hsurplus]
    rfl
  have hdrops : ∀ {m}, i ≤ m → (works (m + 1)).queue = (works m).queue.drop n := by
    intro m hm
    obtain ⟨added, hqueue, -, hadded⟩ := (hserved m).queue
    have hempty : added = [] := List.eq_nil_iff_forall_not_mem.mpr fun a ha => by
      have hasked := ((hadded a).mp ha).1
      rw [hasks (hm.trans (Nat.le_succ m))] at hasked
      cases hasked
    rw [hqueue, hempty, List.append_nil]
  have hempties : ∀ l m, i ≤ m → (works m).queue.length ≤ l → ∃ j, i ≤ j ∧ (works j).queue = [] := by
    intro l
    induction l with
    | zero => exact fun m hm hle => ⟨m, hm, List.length_eq_zero_iff.mp (Nat.le_zero.mp hle)⟩
    | succ l ih =>
      intro m hm hle
      refine ih (m + 1) (by omega) ?_
      rw [hdrops hm, List.length_drop]
      omega
  obtain ⟨j, hj, hempty⟩ := hempties _ i le_rfl le_rfl
  refine ⟨j, fun m hm => ⟨hasks (hj.trans hm), ?_⟩⟩
  induction hm with
  | refl => exact hempty
  | step hm ih => rw [hdrops (hj.trans hm), ih, List.drop_nil]

omit hserved [DecidableEq κ] [DecidableEq σ] in
theorem Plan.stuck_not_clears :
    p.Stuck (fun k => k ∈ Dict.keys p.wanted ∧ ¬ Clears p held k) held := by
  rintro k ⟨hk, hstuck⟩
  obtain ⟨⟨_, v⟩, hwanted, rfl⟩ := List.mem_map.mp hk
  refine ⟨v, hwanted, ?_⟩
  by_contra hnone
  refine hstuck (.intro hwanted (fun e he hplace hne => ?_) fun e he hplace hne hkey => ?_)
  · by_contra hours
    exact hnone ⟨e, he, hplace, hne, .inl (Bool.eq_false_iff.mpr hours)⟩
  · by_contra hblocked
    exact hnone ⟨e, he, hplace, hne, .inr ⟨hkey, hblocked⟩⟩

omit hserved [DecidableEq σ] in
theorem Plan.Stuck.asks_ne_nil {keys : κ → Prop} (h : p.Stuck keys held) (hp : p.Sound)
    (hkept : p.Kept held) (hk : keys k) : p.asks held ≠ [] := by
  obtain ⟨v, hwanted, other, hother, hplace, hne, -⟩ := h k hk
  intro hnone
  have hdue : (k, v) ∉ p.due held := fun hdue => by
    have hasked : Act.put (k, v) ∈ p.asks held := List.mem_append_left _ (List.mem_map_of_mem hdue)
    rw [hnone] at hasked
    cases hasked
  obtain ⟨w, hget, hsettled⟩ := Plan.settled_of_notMem_due hwanted hdue
  have hsame := hp.placed _ hwanted w hsettled
  exact hne (hkept.apart other hother (k, w) (Dict.mem_of_get? hget) (hplace.trans hsame.symm))

theorem Plan.Served.done_iff_clears (hp : p.Sound) (hn : 0 < n) (h : p.Ready (works 0)) :
    (∃ i, ∀ j, i ≤ j → p.asks (works j).held = [] ∧ (works j).queue = []) ↔
      ∀ k ∈ Dict.keys p.wanted, Clears p (works 0).held k := by
  have hready := Plan.Served.ready_all hserved hp h
  constructor
  · rintro ⟨i, hdone⟩ k hk
    by_contra hstuck
    have hkeys := Plan.Served.keeps_all (P := fun held => p.Kept held ∧
        p.Stuck (fun k => k ∈ Dict.keys p.wanted ∧ ¬ Clears p (works 0).held k) held) hserved hready
      ⟨h.kept, Plan.stuck_not_clears⟩
      (fun _ _ hheld ha => ⟨hheld.1.act hp ha, hheld.2.act hp hheld.1 ha⟩) (Nat.zero_le i)
    exact hkeys.2.asks_ne_nil hp hkeys.1 ⟨hk, hstuck⟩ (hdone i le_rfl).1
  · intro hclears
    obtain ⟨i, hzero⟩ := Plan.Served.exists_left_zero hserved hp hn hready hclears
    exact Plan.Served.exists_queue_nil hserved hp hn hready hzero

end

end Placement
