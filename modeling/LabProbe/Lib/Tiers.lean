import Mathlib.Data.List.Perm.Basic

/-!
# The first class that has a member

Elements fall into classes, and the classes are tried in order. The first one
with a member decides: it has one, or several. The order of the elements does
not matter.
-/

namespace Tiers

variable {α κ : Type} [DecidableEq κ]

inductive Choice (κ α : Type) where
  | none
  | one (k : κ) (a : α)
  | many (k : κ)

def members (grade : α → κ) (l : List α) (k : κ) : List α := l.filter fun a => grade a = k

def choose (grade : α → κ) (l : List α) : List κ → Choice κ α
  | [] => .none
  | k :: ks =>
    match members grade l k with
    | [] => choose grade l ks
    | [a] => .one k a
    | _ => .many k

def Leads (grade : α → κ) (l : List α) (tiers : List κ) (k : κ) : Prop :=
  ∃ before after, tiers = before ++ k :: after ∧ (∀ j ∈ before, members grade l j = []) ∧
    members grade l k ≠ []

variable {grade : α → κ} {l l' : List α} {tiers : List κ} {k : κ} {a : α}

theorem members_perm (h : l.Perm l') (k : κ) : (members grade l k).Perm (members grade l' k) :=
  h.filter _

theorem choose_perm (h : l.Perm l') (tiers : List κ) :
    choose grade l tiers = choose grade l' tiers := by
  induction tiers with
  | nil => rfl
  | cons k ks ih =>
    have hp : (members grade l k).Perm (members grade l' k) := members_perm h k
    unfold choose
    cases hm : members grade l k with
    | nil =>
      rw [hm, List.nil_perm] at hp
      rw [hp]
      exact ih
    | cons b rest =>
      rw [hm] at hp
      cases rest with
      | nil => rw [← List.singleton_perm.mp hp]
      | cons c rest =>
        -- both have at least two
        obtain ⟨b', c', rest', hm'⟩ : ∃ b' c' rest', members grade l' k = b' :: c' :: rest' := by
          have hlength := hp.length_eq
          match hm' : members grade l' k with
          | [] | [_] => simp [hm'] at hlength
          | b' :: c' :: rest' => exact ⟨b', c', rest', rfl⟩
        rw [hm']

theorem choose_cons_nil (h : members grade l k = []) :
    choose grade l (k :: tiers) = choose grade l tiers := by
  rw [choose, h]

theorem choose_of_leads (h : Leads grade l tiers k) :
    choose grade l tiers = match members grade l k with
      | [a] => .one k a
      | _ => .many k := by
  obtain ⟨before, after, rfl, hempty, hne⟩ := h
  induction before with
  | nil =>
    rw [List.nil_append, choose]
    cases hm : members grade l k with
    | nil => exact absurd hm hne
    | cons a rest => cases rest <;> rfl
  | cons j before ih =>
    rw [List.cons_append, choose_cons_nil (hempty j List.mem_cons_self)]
    exact ih fun i hi => hempty i (List.mem_cons_of_mem j hi)

theorem leads_or_empty (grade : α → κ) (l : List α) (tiers : List κ) :
    (∃ k, Leads grade l tiers k) ∨ ∀ k ∈ tiers, members grade l k = [] := by
  induction tiers with
  | nil => exact .inr (by simp)
  | cons j tiers ih =>
    by_cases hj : members grade l j = []
    · rcases ih with ⟨k, before, after, rfl, hempty, hne⟩ | hempty
      · exact .inl ⟨k, j :: before, after, rfl, List.forall_mem_cons.mpr ⟨hj, hempty⟩, hne⟩
      · exact .inr (List.forall_mem_cons.mpr ⟨hj, hempty⟩)
    · exact .inl ⟨j, [], tiers, rfl, by simp, hj⟩

theorem choose_of_empty (h : ∀ k ∈ tiers, members grade l k = []) :
    choose grade l tiers = .none := by
  induction tiers with
  | nil => rfl
  | cons k tiers ih =>
    obtain ⟨hk, htiers⟩ := List.forall_mem_cons.mp h
    rw [choose_cons_nil hk, ih htiers]

theorem choose_eq_one : choose grade l tiers = .one k a ↔
    Leads grade l tiers k ∧ members grade l k = [a] := by
  constructor
  · intro h
    rcases leads_or_empty grade l tiers with ⟨j, hj⟩ | hempty
    · rw [choose_of_leads hj] at h
      split at h
      · rename_i b hb
        cases h
        exact ⟨hj, hb⟩
      · cases h
    · rw [choose_of_empty hempty] at h
      cases h
  · rintro ⟨hk, ha⟩
    rw [choose_of_leads hk, ha]

theorem choose_eq_none : choose grade l tiers = .none ↔ ∀ k ∈ tiers, members grade l k = [] := by
  constructor
  · intro h
    rcases leads_or_empty grade l tiers with ⟨j, hj⟩ | hempty
    · rw [choose_of_leads hj] at h
      split at h <;> cases h
    · exact hempty
  · exact choose_of_empty

/-- Where the classes are all that there are, none has a member only if there is
no element. -/
theorem members_eq_nil (htiers : ∀ k, k ∈ tiers) :
    (∀ k ∈ tiers, members grade l k = []) ↔ l = [] := by
  constructor
  · intro h
    rw [List.eq_nil_iff_forall_not_mem]
    intro a ha
    have hmem : a ∈ members grade l (grade a) := List.mem_filter.mpr ⟨ha, by simp⟩
    rw [h _ (htiers _)] at hmem
    cases hmem
  · rintro rfl k -
    rfl

end Tiers
