import Mathlib.Data.List.Sort

/-!
# The first of a ranking

A list is sorted by falling keys, and elements of one key stay in their
order. The first of them stands above all others: it has a greater key, or
the same key and an earlier place.
-/

namespace Ranking

variable {α κ : Type} [LinearOrder κ]

/-- `sorted(l, key=key, reverse=True)`. -/
def sortedDesc (key : α → κ) (l : List α) : List α := l.insertionSort fun a b => key b ≤ key a

def Above (key : α → κ) (l : List α) (a b : α) : Prop :=
  key b < key a ∨ key b = key a ∧ [a, b].Sublist l

variable {key : α → κ} {l : List α} {a b c w : α}

theorem mem_sortedDesc : a ∈ sortedDesc key l ↔ a ∈ l := List.mem_insertionSort _

theorem Above.le (h : Above key l a b) : key b ≤ key a := h.elim le_of_lt fun h => le_of_eq h.1

theorem Above.cons (h : Above key l a b) (c : α) : Above key (c :: l) a b :=
  h.imp_right fun h => ⟨h.1, h.2.cons c⟩

theorem above_filter {p : α → Bool} (ha : p a = true) (hb : p b = true) :
    Above key (l.filter p) a b ↔ Above key l a b := by
  have hpair : [a, b].filter p = [a, b] := by simp [ha, hb]
  have hsub : [a, b].Sublist (l.filter p) ↔ [a, b].Sublist l :=
    ⟨fun h => h.trans List.filter_sublist, fun h => hpair ▸ h.filter p⟩
  rw [Above, Above, hsub]

theorem head?_cons (key : α → κ) (a : α) (l : List α) :
    (sortedDesc key (a :: l)).head? = match (sortedDesc key l).head? with
      | none => some a
      | some b => if key b ≤ key a then some a else some b := by
  rw [sortedDesc, List.insertionSort_cons, ← sortedDesc]
  cases sortedDesc key l with
  | nil => rfl
  | cons b rest =>
    rw [List.orderedInsert, List.head?_cons]
    dsimp only
    split <;> rfl

theorem head?_eq_none (h : (sortedDesc key l).head? = none) : l = [] := by
  rw [List.head?_eq_none_iff, List.eq_nil_iff_forall_not_mem] at h
  exact List.eq_nil_iff_forall_not_mem.mpr fun a ha => h a (mem_sortedDesc.mpr ha)

theorem head?_mem (h : (sortedDesc key l).head? = some w) : w ∈ l :=
  mem_sortedDesc.mp (List.mem_of_head? h)

theorem above_of_head? (h : (sortedDesc key l).head? = some w) (hb : b ∈ l) (hne : b ≠ w) :
    Above key l w b := by
  induction l generalizing w with
  | nil => cases hb
  | cons a l ih =>
    rw [head?_cons] at h
    cases hl : (sortedDesc key l).head? with
    | none =>
      rw [hl] at h
      cases h
      rw [head?_eq_none hl, List.mem_singleton] at hb
      exact absurd hb hne
    | some c =>
      rw [hl] at h
      dsimp only at h
      rcases List.mem_cons.mp hb with rfl | hb
      · split at h
        · cases h
          exact absurd rfl hne
        · rename_i hlt
          cases h
          exact .inl (lt_of_not_ge hlt)
      · have hle : key b ≤ key c := by
          by_cases hbc : b = c
          · exact le_of_eq (congrArg key hbc)
          · exact (ih hl hb hbc).le
        split at h
        · rename_i hca
          cases h
          rcases lt_or_eq_of_le (hle.trans hca) with hlt | heq
          · exact .inl hlt
          · exact .inr ⟨heq, (List.singleton_sublist.mpr hb).cons_cons a⟩
        · cases h
          exact (ih hl hb hne).cons a

theorem not_sublist_swap (hd : l.Nodup) (h : [a, b].Sublist l) : ¬ [b, a].Sublist l := by
  induction l with
  | nil => cases h
  | cons c l ih =>
    obtain ⟨hnot, hd⟩ := List.nodup_cons.mp hd
    intro hswap
    cases h with
    | cons _ h =>
      cases hswap with
      | cons _ hswap => exact ih hd h hswap
      | cons_cons _ hswap => exact hnot (h.subset (by simp))
    | cons_cons _ h =>
      cases hswap with
      | cons _ hswap => exact hnot (hswap.subset (by simp))
      | cons_cons _ hswap => exact hnot (List.singleton_sublist.mp h)

theorem Above.asymm (hd : l.Nodup) (h : Above key l a b) : ¬ Above key l b a := by
  rintro (hlt | ⟨heq, hswap⟩)
  · exact absurd h.le (not_le_of_gt hlt)
  · rcases h with hlt | ⟨-, hsub⟩
    · exact absurd heq (ne_of_gt hlt)
    · exact not_sublist_swap hd hsub hswap

/-- The first is not of a kind exactly if all of the kind have another above
them. -/
theorem head?_not_iff (hd : l.Nodup) (h : (sortedDesc key l).head? = some w) (kind : α → Prop) :
    ¬ kind w ↔ ∀ a ∈ l, kind a → ∃ b ∈ l, ¬ kind b ∧ Above key l b a := by
  constructor
  · intro hw a ha hkind
    have hne : a ≠ w := by
      rintro rfl
      exact hw hkind
    exact ⟨w, head?_mem h, hw, above_of_head? h ha hne⟩
  · intro hall hw
    obtain ⟨b, hb, hkind, habove⟩ := hall w (head?_mem h) hw
    have hne : b ≠ w := by
      rintro rfl
      exact hkind hw
    exact habove.asymm hd (above_of_head? h hb hne)

-- ---------------------------------------------------------------------------
-- Another order of the list
-- ---------------------------------------------------------------------------

theorem perm_sortedDesc (key : α → κ) (l : List α) : (sortedDesc key l).Perm l :=
  List.perm_insertionSort _ l

theorem pairwise_sortedDesc (key : α → κ) (l : List α) :
    (sortedDesc key l).Pairwise fun a b => key b ≤ key a := by
  have htotal : Std.Total fun a b : α => key b ≤ key a := ⟨fun a b => le_total (key b) (key a)⟩
  have htrans : IsTrans α fun a b => key b ≤ key a := ⟨fun _ _ _ hab hbc => hbc.trans hab⟩
  exact List.pairwise_insertionSort _ l

theorem map_sortedDesc_perm {l' : List α} (h : l.Perm l') :
    (sortedDesc key l).map key = (sortedDesc key l').map key := by
  have hperm := ((perm_sortedDesc key l).trans (h.trans (perm_sortedDesc key l').symm)).map key
  have hfalling : ∀ m : List α, ((sortedDesc key m).map key).Pairwise fun a b => b ≤ a :=
    fun m => List.pairwise_map.mpr (pairwise_sortedDesc key m)
  exact hperm.eq_of_pairwise (fun _ _ _ _ hab hba => le_antisymm hba hab) (hfalling l) (hfalling l')

theorem le_of_sortedDesc_cons {rest : List α} (h : sortedDesc key l = w :: rest) :
    ∀ b ∈ l, key b ≤ key w := by
  intro b hb
  have hpair := pairwise_sortedDesc key l
  rw [h] at hpair
  have hmem : b ∈ w :: rest := by
    rw [← h]
    exact mem_sortedDesc.mpr hb
  rcases List.mem_cons.mp hmem with rfl | hb
  · exact le_rfl
  · exact (List.pairwise_cons.mp hpair).1 b hb

theorem sortedDesc_cons_of_best (h : ∀ b ∈ l, key b ≤ key a) :
    sortedDesc key (a :: l) = a :: sortedDesc key l :=
  List.insertionSort_cons_of_forall_rel _ h

/-- A first element that is better than the second comes first whatever the
order, and is better than the second then. -/
theorem sortedDesc_perm_of_unique {l' rest : List α} (h : l.Perm l')
    (hl : sortedDesc key l = w :: rest) (hne : ∀ second ∈ rest.head?, key w ≠ key second) :
    ∃ rest', sortedDesc key l' = w :: rest' ∧ ∀ second ∈ rest'.head?, key w ≠ key second := by
  have hkeys : (sortedDesc key l).map key = (sortedDesc key l').map key := map_sortedDesc_perm h
  rw [hl] at hkeys
  cases hl' : sortedDesc key l' with
  | nil =>
    rw [hl'] at hkeys
    simp at hkeys
  | cons w' rest' =>
    rw [hl', List.map_cons, List.map_cons, List.cons.injEq] at hkeys
    obtain ⟨hkey, hrest⟩ := hkeys
    have hheads : rest.head?.map key = rest'.head?.map key := by
      rw [← List.head?_map, ← List.head?_map, hrest]
    have hfirst : w' ∈ sortedDesc key l' := hl' ▸ List.mem_cons_self
    have hmem : w' ∈ w :: rest := by
      rw [← hl, mem_sortedDesc, h.mem_iff]
      exact mem_sortedDesc.mp hfirst
    obtain rfl : w' = w := by
      refine (List.mem_cons.mp hmem).resolve_right fun hin => ?_
      cases rest with
      | nil => cases hin
      | cons second rest =>
        have hpair := pairwise_sortedDesc key l
        rw [hl] at hpair
        obtain ⟨hbest, htail⟩ := List.pairwise_cons.mp hpair
        have hsecond : key w' ≤ key second := by
          rcases List.mem_cons.mp hin with rfl | hin
          · exact le_rfl
          · exact (List.pairwise_cons.mp htail).1 w' hin
        exact hne second rfl (le_antisymm (hkey ▸ hsecond) (hbest second List.mem_cons_self))
    refine ⟨rest', rfl, fun second hsecond => ?_⟩
    rw [Option.mem_def] at hsecond
    rw [hsecond, Option.map_some, Option.map_eq_some_iff] at hheads
    obtain ⟨other, hother, heq⟩ := hheads
    exact heq ▸ hne other hother

end Ranking
