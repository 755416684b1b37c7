import Mathlib.Algebra.Order.Field.Rat
import Mathlib.Data.List.Basic

/-!
# Insertion-ordered dictionaries

A dictionary is the list of its entries in insertion order. Setting a key
that is present replaces its value in place; a new key goes to the end. The
functions make sense for any list of entries, and the first entry of a key
is the one that counts; the dictionaries built here never repeat a key.
-/

namespace Dict

variable {κ α β : Type}

def keys (d : List (κ × α)) : List κ := d.map Prod.fst

theorem keys_map (f : α → β) (d : List (κ × α)) : keys (d.map fun e => (e.1, f e.2)) = keys d := by
  simp [keys, Function.comp_def]

theorem nodup_keys_filter (p : κ × α → Bool) {d : List (κ × α)} (hd : (keys d).Nodup) :
    (keys (d.filter p)).Nodup := hd.sublist (List.filter_sublist.map _)

variable [DecidableEq κ]

def get? : List (κ × α) → κ → Option α
  | [], _ => none
  | (key, value) :: d, k => if key = k then some value else get? d k

def set : List (κ × α) → κ → α → List (κ × α)
  | [], k, v => [(k, v)]
  | (key, value) :: d, k, v => if key = k then (k, v) :: d else (key, value) :: set d k v

def erase (d : List (κ × α)) (k : κ) : List (κ × α) := d.filter fun e => e.1 ≠ k

attribute [local grind =] get? set

/-- The dictionary of a comprehension: later entries replace earlier ones. -/
def ofEntries (l : List (κ × α)) : List (κ × α) := l.foldl (fun d e => set d e.1 e.2) []

/-- `{**d, **l}`. -/
def update (d l : List (κ × α)) : List (κ × α) := l.foldl (fun d e => set d e.1 e.2) d

-- ---------------------------------------------------------------------------
-- Reading
-- ---------------------------------------------------------------------------

@[simp] theorem get?_nil (k : κ) : get? ([] : List (κ × α)) k = none := rfl

theorem get?_append (d d' : List (κ × α)) (k : κ) :
    get? (d ++ d') k = (get? d k).or (get? d' k) := by
  induction d with
  | nil => rfl
  | cons e d ih => simp only [List.cons_append, get?]; split <;> simp [ih]

theorem mem_of_get? {d : List (κ × α)} (h : get? d k = some v) : (k, v) ∈ d := by
  induction d with
  | nil => simp at h
  | cons e d ih =>
    simp only [get?] at h
    split at h
    · rename_i hk
      cases Option.some.inj h
      exact hk ▸ List.mem_cons_self
    · exact List.mem_cons_of_mem _ (ih h)

theorem get?_eq_none {d : List (κ × α)} : get? d k = none ↔ k ∉ keys d := by
  induction d with
  | nil => simp [keys]
  | cons e d ih =>
    simp only [get?, keys, List.map_cons, List.mem_cons, not_or] at ih ⊢
    split
    · simp_all
    · rename_i hk
      simp [ih, Ne.symm hk]

theorem get?_isSome {d : List (κ × α)} : (get? d k).isSome ↔ k ∈ keys d := by
  rw [← not_iff_not, ← get?_eq_none, Option.not_isSome_iff_eq_none]

theorem get?_of_mem {d : List (κ × α)} (hd : (keys d).Nodup) (h : (k, v) ∈ d) :
    get? d k = some v := by
  induction d with
  | nil => simp at h
  | cons e d ih =>
    obtain ⟨hn, hd⟩ := List.nodup_cons.mp hd
    rcases List.mem_cons.mp h with rfl | h
    · simp [get?]
    · have hk : e.1 ≠ k := fun hk => hn (hk ▸ List.mem_map.mpr ⟨_, h, rfl⟩)
      simp [get?, hk, ih hd h]

theorem get?_eq_some {d : List (κ × α)} (hd : (keys d).Nodup) :
    get? d k = some v ↔ (k, v) ∈ d := ⟨mem_of_get?, get?_of_mem hd⟩

theorem get?_map (f : α → β) (d : List (κ × α)) (k : κ) :
    get? (d.map fun e => (e.1, f e.2)) k = (get? d k).map f := by
  induction d with
  | nil => rfl
  | cons e d ih => simp only [List.map_cons, get?]; split <;> simp [ih]

theorem get?_map_keys {κ' : Type} [DecidableEq κ'] {g : κ → κ'} (hg : Function.Injective g)
    (f : α → β) (d : List (κ × α)) (k : κ) :
    get? (d.map fun e => (g e.1, f e.2)) (g k) = (get? d k).map f := by
  induction d with
  | nil => rfl
  | cons e d ih => simp only [List.map_cons, get?, hg.eq_iff]; split <;> simp [ih]

theorem get?_perm {d d' : List (κ × α)} (hd : (keys d).Nodup) (hp : d.Perm d') (k : κ) :
    get? d k = get? d' k := by
  have hd' : (keys d').Nodup := (hp.map _).nodup_iff.mp hd
  apply Option.ext
  intro v
  rw [get?_eq_some hd, get?_eq_some hd', hp.mem_iff]

/-- Filtering by the entry keeps a key exactly when its entry passes. -/
theorem get?_filter (p : κ × α → Bool) {d : List (κ × α)} (hd : (keys d).Nodup) (k : κ) :
    get? (d.filter p) k = (get? d k).filter fun v => p (k, v) := by
  apply Option.ext
  intro v
  rw [get?_eq_some (nodup_keys_filter p hd), Option.filter_eq_some_iff, get?_eq_some hd,
    List.mem_filter]

theorem get?_filter_key (p : κ → Bool) (d : List (κ × α)) (k : κ) :
    get? (d.filter fun e => p e.1) k = if p k then get? d k else none := by
  induction d with
  | nil => cases p k <;> rfl
  | cons e d ih =>
    by_cases he : p e.1 = true
    · rw [List.filter_cons_of_pos (by exact he)]
      simp only [get?, ih]
      split
      · rename_i hk
        rw [← hk, if_pos he]
      · rfl
    · rw [List.filter_cons_of_neg (by exact he), ih]
      split
      · rename_i hk
        have hne : e.1 ≠ k := by
          rintro rfl
          exact he hk
        rw [get?, if_neg hne]
      · rfl

-- ---------------------------------------------------------------------------
-- Writing
-- ---------------------------------------------------------------------------

@[simp] theorem get?_set (d : List (κ × α)) (k : κ) (v : α) (k' : κ) :
    get? (set d k v) k' = if k = k' then some v else get? d k' := by
  induction d with
  | nil => rfl
  | cons e d ih =>
    simp only [set]
    split
    · rename_i hk
      subst hk
      simp only [get?]
      split <;> rfl
    · rename_i hk
      simp only [get?, ih]
      split <;> split <;> simp_all

theorem keys_set (d : List (κ × α)) (k : κ) (v : α) :
    keys (set d k v) = if k ∈ keys d then keys d else keys d ++ [k] := by
  induction d with
  | nil => rfl
  | cons e d ih =>
    simp only [set]
    split
    · rename_i hk
      simp [keys, hk]
    · rename_i hk
      simp only [keys, List.map_cons, List.mem_cons] at ih ⊢
      rw [ih]
      by_cases hm : k ∈ d.map Prod.fst <;> simp [hm, Ne.symm hk]

theorem mem_keys_set {d : List (κ × α)} : k' ∈ keys (set d k v) ↔ k' ∈ keys d ∨ k = k' := by
  rw [← get?_isSome, get?_set, ← get?_isSome]
  split <;> simp_all

theorem set_set (d : List (κ × α)) (k : κ) (v w : α) : set (set d k v) k w = set d k w := by
  induction d with
  | nil => simp [set]
  | cons e d ih =>
    simp only [set]
    split
    · simp [set]
    · rename_i hk
      simp [set, hk, ih]

theorem set_of_notMem {d : List (κ × α)} (v : α) (h : k ∉ keys d) : set d k v = d ++ [(k, v)] := by
  induction d with
  | nil => rfl
  | cons e d ih =>
    obtain ⟨hne, hd⟩ := List.ne_and_not_mem_of_not_mem_cons h
    simp [set, Ne.symm hne, ih hd]

theorem set_eq_self {d : List (κ × α)} (h : get? d k = some v) : set d k v = d := by
  induction d with
  | nil => simp at h
  | cons e d ih =>
    simp only [get?] at h
    simp only [set]
    split at h
    · rename_i hk
      cases h
      rw [if_pos hk, ← hk]
    · rename_i hk
      rw [if_neg hk, ih h]

theorem set_eq_self_iff {d : List (κ × α)} : set d k v = d ↔ get? d k = some v := by
  refine ⟨fun h => ?_, set_eq_self⟩
  have hget := get?_set d k v k
  rwa [h, if_pos rfl] at hget

theorem erase_eq_self {d : List (κ × α)} (h : k ∉ keys d) : erase d k = d := by
  rw [erase, List.filter_eq_self]
  intro e he
  simp only [decide_eq_true_eq]
  rintro rfl
  exact h (List.mem_map_of_mem he)

theorem erase_eq_self_iff {d : List (κ × α)} : erase d k = d ↔ get? d k = none := by
  rw [get?_eq_none]
  refine ⟨fun h hk => ?_, erase_eq_self⟩
  obtain ⟨e, he, hkey⟩ := List.mem_map.mp hk
  rw [← h, erase, List.mem_filter] at he
  simp [hkey] at he

theorem get?_erase (d : List (κ × α)) (k k' : κ) :
    get? (erase d k) k' = if k = k' then none else get? d k' := by
  induction d with
  | nil => simp [erase]
  | cons e d ih =>
    simp only [erase, ne_eq, decide_not] at ih ⊢
    by_cases hk : e.1 = k
    · rw [List.filter_cons_of_neg (by simp [hk]), ih, get?, hk]
      split <;> rfl
    · rw [List.filter_cons_of_pos (by simp [hk]), get?, get?, ih]
      split <;> split <;> simp_all

theorem perm_erase {d : List (κ × α)} (hd : (keys d).Nodup) (h : get? d k = some v) :
    d.Perm ((k, v) :: erase d k) := by
  induction d with
  | nil => simp at h
  | cons e d ih =>
    obtain ⟨hnotin, hd⟩ := List.nodup_cons.mp hd
    simp only [get?] at h
    split at h
    · rename_i hk
      cases h
      subst hk
      have hrest : erase (e :: d) e.1 = d := by
        rw [erase, List.filter_cons_of_neg (by simp)]
        exact erase_eq_self hnotin
      rw [hrest]
    · rename_i hk
      have hrest := (ih hd h).cons e
      simp only [erase] at hrest
      simp only [erase, ne_eq, hk, not_false_eq_true, decide_true, List.filter_cons_of_pos]
      exact hrest.trans (.swap _ _ _)

theorem erase_set {d : List (κ × α)} (v : α) (h : k ∉ keys d) : erase (set d k v) k = d := by
  induction d with
  | nil => simp [set, erase]
  | cons e d ih =>
    simp only [keys, List.map_cons, List.mem_cons, not_or] at h
    have hne : e.1 ≠ k := Ne.symm h.1
    simp only [set, if_neg hne, erase] at ih ⊢
    rw [List.filter_cons_of_pos (by simpa using hne), ih h.2]

theorem erase_set_self (d : List (κ × α)) (k : κ) (v : α) : erase (set d k v) k = erase d k := by
  induction d with
  | nil => simp [set, erase]
  | cons e d ih =>
    simp only [set, erase, ne_eq, decide_not] at ih ⊢
    by_cases hk : e.1 = k
    · simp [hk]
    · simp [hk, ih]

theorem mem_erase {d : List (κ × α)} {e : κ × α} : e ∈ erase d k ↔ e ∈ d ∧ e.1 ≠ k := by
  simp [erase]

theorem mem_set {d : List (κ × α)} {e : κ × α} (h : e ∈ set d k v) : e = (k, v) ∨ e ∈ d := by
  induction d with
  | nil => exact .inl (List.mem_singleton.mp h)
  | cons e' d ih =>
    simp only [set] at h
    split at h
    · rcases List.mem_cons.mp h with h | h
      · exact .inl h
      · exact .inr (List.mem_cons_of_mem _ h)
    · rcases List.mem_cons.mp h with rfl | h
      · exact .inr List.mem_cons_self
      · exact (ih h).imp_right (List.mem_cons_of_mem _)

theorem nodup_keys_set (k : κ) (v : α) {d : List (κ × α)} (hd : (keys d).Nodup) :
    (keys (set d k v)).Nodup := by
  rw [keys_set]
  split
  · exact hd
  · rename_i hk
    refine List.nodup_append.mpr ⟨hd, by simp, ?_⟩
    rintro a ha b hb rfl
    exact hk (List.mem_singleton.mp hb ▸ ha)

theorem nodup_keys_ofEntries (l : List (κ × α)) : (keys (ofEntries l)).Nodup := by
  suffices h : ∀ d : List (κ × α), (keys d).Nodup →
      (keys (l.foldl (fun d e => set d e.1 e.2) d)).Nodup from h [] (by simp [keys])
  induction l with
  | nil => exact fun _ hd => hd
  | cons e l ih => exact fun d hd => ih _ (nodup_keys_set _ _ hd)

theorem get?_update (d l : List (κ × α)) (k : κ) :
    get? (update d l) k = (get? l.reverse k).or (get? d k) := by
  unfold update
  induction l generalizing d with
  | nil => simp
  | cons e l ih =>
    rw [List.foldl_cons, ih, List.reverse_cons, get?_append, get?_set, Option.or_assoc]
    simp only [get?]
    split <;> simp

theorem get?_update_of_mem (d : List (κ × α)) {l : List (κ × α)} (hl : (keys l).Nodup)
    (h : (k, v) ∈ l) : get? (update d l) k = some v := by
  rw [get?_update, ← get?_perm hl (List.reverse_perm l).symm, get?_of_mem hl h, Option.some_or]

theorem get?_update_of_notMem (d : List (κ × α)) {l : List (κ × α)} (h : k ∉ keys l) :
    get? (update d l) k = get? d k := by
  have hreverse : get? l.reverse k = none := by
    rw [get?_eq_none, keys, List.map_reverse, List.mem_reverse]
    exact h
  rw [get?_update, hreverse, Option.none_or]

theorem update_eq_self {d l : List (κ × α)} (h : ∀ e ∈ l, get? d e.1 = some e.2) :
    update d l = d := by
  induction l with
  | nil => rfl
  | cons e l ih =>
    obtain ⟨he, hl⟩ := List.forall_mem_cons.mp h
    rw [update, List.foldl_cons, set_eq_self he]
    exact ih hl

theorem get?_ofEntries (l : List (κ × α)) (k : κ) : get? (ofEntries l) k = get? l.reverse k := by
  have h := get?_update [] l k
  rwa [get?_nil, Option.or_none] at h

theorem mem_ofEntries {l : List (κ × α)} {e : κ × α} (h : e ∈ ofEntries l) : e ∈ l := by
  obtain ⟨k, v⟩ := e
  have hget := get?_of_mem (nodup_keys_ofEntries l) h
  rw [get?_ofEntries] at hget
  exact List.mem_reverse.mp (mem_of_get? hget)

theorem keys_ofEntries_congr {l : List (κ × α)} {l' : List (κ × β)} (h : keys l = keys l') :
    keys (ofEntries l) = keys (ofEntries l') := by
  suffices hfold : ∀ (d : List (κ × α)) (d' : List (κ × β)), keys d = keys d' →
      keys (l.foldl (fun d e => set d e.1 e.2) d) = keys (l'.foldl (fun d e => set d e.1 e.2) d') from
    hfold [] [] rfl
  induction l generalizing l' with
  | nil =>
    obtain rfl : l' = [] := List.map_eq_nil_iff.mp h.symm
    exact fun _ _ hd => hd
  | cons e l ih =>
    obtain ⟨e', l', rfl⟩ := List.exists_cons_of_ne_nil (l := l') (by rintro rfl; cases h)
    obtain ⟨hkey, hkeys⟩ := List.cons.inj h
    intro d d' hd
    exact ih hkeys _ _ (by rw [keys_set, keys_set, hd, hkey])

theorem mem_keys_ofEntries {l : List (κ × α)} {k : κ} : k ∈ keys (ofEntries l) ↔ k ∈ keys l := by
  rw [← get?_isSome, get?_ofEntries, get?_isSome, keys, List.map_reverse, List.mem_reverse, keys]

end Dict
