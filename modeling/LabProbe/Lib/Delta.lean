import LabProbe.Lib.Dict
import Mathlib.Data.List.Nodup

/-!
# Lists of rows sent as deltas

A sender holds a list of rows and sends, with each new list, only the rows
that differ from the row of their key in the list before. A receiver keeps
one row for each key and replaces it by what is sent. A delta has no word for
a row that is gone, and a table has one row for a key: the receiver holds the
new list exactly where it repeats no key and leaves none out.
-/

namespace Deltas

variable {κ ρ : Type} [DecidableEq κ] [DecidableEq ρ] (key : ρ → κ)

/-- The rows of a list under their keys, the last one of a key. -/
def table (rows : List ρ) : List (κ × ρ) := Dict.ofEntries (rows.map fun r => (key r, r))

def delta (old new : List ρ) : List ρ :=
  new.filter fun r => !(Dict.get? (table key old) (key r) == some r)

def patch (t : List (κ × ρ)) (rows : List ρ) : List (κ × ρ) :=
  Dict.update t (rows.map fun r => (key r, r))

variable {key} {old new rows : List ρ} {t : List (κ × ρ)} {k : κ}

omit [DecidableEq ρ] in
theorem key_of_table {r : ρ} (h : Dict.get? (table key rows) k = some r) : r ∈ rows ∧ key r = k := by
  obtain ⟨r', hr', heq⟩ := List.mem_map.mp (Dict.mem_ofEntries (Dict.mem_of_get? h))
  obtain ⟨rfl, rfl⟩ := Prod.mk.inj heq
  exact ⟨hr', rfl⟩

omit [DecidableEq ρ] in
theorem get?_table (hn : (rows.map key).Nodup) {r : ρ} (hr : r ∈ rows) :
    Dict.get? (table key rows) (key r) = some r := by
  have hkeys : Dict.keys (rows.map fun r => (key r, r)).reverse = (rows.map key).reverse := by
    simp [Dict.keys]
  rw [table, Dict.get?_ofEntries]
  refine Dict.get?_of_mem ?_ (List.mem_reverse.mpr (List.mem_map_of_mem hr))
  rw [hkeys]
  exact List.nodup_reverse.mpr hn

omit [DecidableEq ρ] in
theorem get?_table_none : Dict.get? (table key rows) k = none ↔ k ∉ rows.map key := by
  rw [Dict.get?_eq_none, table, Dict.mem_keys_ofEntries]
  simp [Dict.keys]

omit [DecidableEq ρ] in
theorem get?_patch (t : List (κ × ρ)) (rows : List ρ) (k : κ) :
    Dict.get? (patch key t rows) k = (Dict.get? (table key rows) k).or (Dict.get? t k) := by
  rw [patch, Dict.get?_update, table, Dict.get?_ofEntries]

omit [DecidableEq ρ] in
theorem nodup_patch (ht : (Dict.keys t).Nodup) (rows : List ρ) :
    (Dict.keys (patch key t rows)).Nodup := by
  unfold patch Dict.update
  induction rows generalizing t with
  | nil => exact ht
  | cons r rows ih => exact ih (Dict.nodup_keys_set _ _ ht)

/-- A receiver that holds the old table holds the new one after a delta, where
the new list repeats no key and leaves none out. -/
theorem get?_patch_delta (hs : ∀ k, Dict.get? t k = Dict.get? (table key old) k)
    (hn : (new.map key).Nodup) (hc : ∀ r ∈ old, key r ∈ new.map key) (k : κ) :
    Dict.get? (patch key t (delta key old new)) k = Dict.get? (table key new) k := by
  have hsub : (delta key old new).Sublist new := List.filter_sublist
  rw [get?_patch, hs]
  by_cases hk : k ∈ new.map key
  · obtain ⟨r, hr, rfl⟩ := List.mem_map.mp hk
    rw [get?_table hn hr]
    by_cases hsame : Dict.get? (table key old) (key r) = some r
    · -- the row is not sent, and no other row of its key is
      have hnone : Dict.get? (table key (delta key old new)) (key r) = none := by
        rw [get?_table_none]
        intro hmem
        obtain ⟨r', hr', heq⟩ := List.mem_map.mp hmem
        obtain ⟨hnew, hdiff⟩ := List.mem_filter.mp hr'
        obtain rfl := List.inj_on_of_nodup_map hn hnew hr heq
        simp [hsame] at hdiff
      rw [hnone, Option.none_or, hsame]
    · have hmem : r ∈ delta key old new := List.mem_filter.mpr ⟨hr, by simpa using hsame⟩
      rw [get?_table (hn.sublist (hsub.map key)) hmem, Option.some_or]
  · have hnone : Dict.get? (table key (delta key old new)) k = none :=
      get?_table_none.mpr fun hmem => hk ((hsub.map key).subset hmem)
    have hold : Dict.get? (table key old) k = none := by
      refine get?_table_none.mpr fun hmem => hk ?_
      obtain ⟨r, hr, rfl⟩ := List.mem_map.mp hmem
      exact hc r hr
    rw [hnone, hold, Option.none_or, get?_table_none.mpr hk]

/-- The receiver of a delta holds exactly the rows of the new list where that
list repeats no key and leaves none out. -/
theorem patch_delta_perm_iff (ht : (Dict.keys t).Nodup)
    (hs : ∀ k, Dict.get? t k = Dict.get? (table key old) k) :
    ((patch key t (delta key old new)).map Prod.snd).Perm new ↔
      (new.map key).Nodup ∧ ∀ r ∈ old, key r ∈ new.map key := by
  have hkeys : (Dict.keys (patch key t (delta key old new))).Nodup := nodup_patch ht _
  constructor
  · intro hperm
    have hown : ∀ e ∈ patch key t (delta key old new), key e.2 = e.1 := by
      intro e he
      have hget := Dict.get?_of_mem hkeys he
      rw [get?_patch, hs, Option.or_eq_some_iff] at hget
      rcases hget with hget | ⟨-, hget⟩
      · exact (key_of_table hget).2
      · exact (key_of_table hget).2
    have hmap : ((patch key t (delta key old new)).map Prod.snd).map key =
        Dict.keys (patch key t (delta key old new)) := by
      rw [List.map_map]
      exact List.map_congr_left hown
    have hnew := hperm.map key
    rw [hmap] at hnew
    refine ⟨hnew.nodup_iff.mp hkeys, fun r hr => ?_⟩
    rw [← hnew.mem_iff, ← Dict.get?_isSome, get?_patch, hs]
    have hold : (Dict.get? (table key old) (key r)).isSome := by
      rw [Option.isSome_iff_ne_none, Ne, get?_table_none, not_not]
      exact List.mem_map_of_mem hr
    simp [hold]
  · rintro ⟨hn, hc⟩
    have hget := get?_patch_delta hs hn hc
    have htable : (new.map fun r => (key r, r)).Nodup :=
      List.Nodup.of_map Prod.fst (by simpa [Function.comp_def] using hn)
    have hperm : (patch key t (delta key old new)).Perm (new.map fun r => (key r, r)) := by
      rw [List.perm_ext_iff_of_nodup (List.Nodup.of_map Prod.fst hkeys) htable]
      rintro ⟨k, r⟩
      rw [← Dict.get?_eq_some hkeys, hget, List.mem_map]
      constructor
      · intro h
        obtain ⟨hr, rfl⟩ := key_of_table h
        exact ⟨r, hr, rfl⟩
      · rintro ⟨r', hr', heq⟩
        obtain ⟨rfl, rfl⟩ := Prod.mk.inj heq
        exact get?_table hn hr'
    simpa [Function.comp_def] using hperm.map Prod.snd

end Deltas
