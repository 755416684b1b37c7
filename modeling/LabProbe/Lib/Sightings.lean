import LabProbe.Lib.Dict

/-!
# Values seen twice in a row

A history lists what was seen of each key. A table of candidates has for a key
the value seen last and how often. It is exact as long as every sighting enters
it; a table that leaves out the blank ones knows the last value that was not
blank, and a value that returns behind a blank one looks like one seen twice in
a row.
-/

namespace Sightings

variable {κ ν : Type} [DecidableEq κ] {k k' : κ} {v w blank : ν} {n : Nat}
  {seen : List (κ × ν)} {candidates : List (κ × ν × Nat)}

def valuesOf (k : κ) (seen : List (κ × ν)) : List ν :=
  (seen.filter fun e => e.1 = k).map Prod.snd

def Twice (seen : List (κ × ν)) (k : κ) (v : ν) : Prop := [v, v] <:+ valuesOf k seen

@[simp]
theorem valuesOf_append_self : valuesOf k (seen ++ [(k, v)]) = valuesOf k seen ++ [v] := by
  simp [valuesOf]

theorem valuesOf_append_of_ne (h : k' ≠ k) : valuesOf k (seen ++ [(k', v)]) = valuesOf k seen := by
  simp [valuesOf, h]

theorem twice_append_iff : Twice (seen ++ [(k, v)]) k v ↔ (valuesOf k seen).getLast? = some v := by
  rw [Twice, valuesOf_append_self, show [v, v] = [v] ++ [v] from rfl,
    List.suffix_append_inj_of_length_eq rfl, List.getLast?_eq_some_iff]
  constructor
  · rintro ⟨⟨l, hl⟩, -⟩
    exact ⟨l, hl.symm⟩
  · rintro ⟨l, hl⟩
    exact ⟨⟨l, hl.symm⟩, rfl⟩

variable [DecidableEq ν]

instance : Decidable (Twice seen k v) := inferInstanceAs (Decidable (_ <:+ _))

def shown (blank : ν) (k : κ) (seen : List (κ × ν)) : Option ν :=
  ((valuesOf k seen).filter (· ≠ blank)).getLast?

theorem shown_append_self (h : v ≠ blank) : shown blank k (seen ++ [(k, v)]) = some v := by
  simp [shown, h]

theorem shown_append_blank : shown blank k (seen ++ [(k', blank)]) = shown blank k seen := by
  by_cases hk : k' = k
  · subst hk
    simp [shown]
  · rw [shown, valuesOf_append_of_ne hk, shown]

theorem shown_append_of_ne (h : k' ≠ k) : shown blank k (seen ++ [(k', v)]) = shown blank k seen := by
  rw [shown, valuesOf_append_of_ne h, shown]

theorem getLast?_of_shown (h : shown blank k seen = some v) :
    (valuesOf k seen).getLast? = some v ∨ (valuesOf k seen).getLast? = some blank := by
  unfold shown at h
  generalize valuesOf k seen = values at h ⊢
  rcases List.eq_nil_or_concat values with rfl | ⟨front, w, rfl⟩
  · cases h
  · by_cases hw : w = blank
    · exact .inr (by simp [hw])
    · exact .inl (by simpa [hw] using h)

-- ---------------------------------------------------------------------------
-- A table without the blank ones
-- ---------------------------------------------------------------------------

/-- Candidates were seen, are not blank, and nothing but blank values was seen
of their keys since. -/
def Tracks (blank : ν) (candidates : List (κ × ν × Nat)) (seen : List (κ × ν)) : Prop :=
  ∀ k v n, Dict.get? candidates k = some (v, n) →
    1 ≤ n ∧ v ≠ blank ∧ shown blank k seen = some v

theorem tracks_nil : Tracks blank [] seen := by
  rintro k v n h
  cases h

theorem Tracks.append_blank (h : Tracks blank candidates seen) :
    Tracks blank candidates (seen ++ [(k, blank)]) := by
  rintro k' v n hget
  rw [shown_append_blank]
  exact h k' v n hget

theorem Tracks.erase (h : Tracks blank candidates seen) :
    Tracks blank (Dict.erase candidates k) seen := by
  rintro k' v n hget
  rw [Dict.get?_erase] at hget
  split at hget
  · cases hget
  · exact h k' v n hget

theorem Tracks.erase_append (h : Tracks blank candidates seen) :
    Tracks blank (Dict.erase candidates k) (seen ++ [(k, v)]) := by
  rintro k' w n hget
  rw [Dict.get?_erase] at hget
  split at hget
  · cases hget
  · rename_i hne
    rw [shown_append_of_ne hne]
    exact h k' w n hget

theorem Tracks.set (h : Tracks blank candidates seen) (hv : v ≠ blank) (hn : 1 ≤ n) :
    Tracks blank (Dict.set candidates k (v, n)) (seen ++ [(k, v)]) := by
  rintro k' w m hget
  rw [Dict.get?_set] at hget
  split at hget
  · rename_i heq
    cases hget
    exact ⟨hn, hv, heq ▸ shown_append_self hv⟩
  · rename_i hne
    rw [shown_append_of_ne hne]
    exact h k' w m hget

/-- A candidate that is seen again was seen twice in a row unless a blank value
came between. -/
theorem Tracks.twice_iff (h : Tracks blank candidates seen)
    (hget : Dict.get? candidates k = some (v, n)) :
    Twice (seen ++ [(k, v)]) k v ↔ (valuesOf k seen).getLast? ≠ some blank := by
  obtain ⟨-, hv, hshown⟩ := h k v n hget
  rw [twice_append_iff]
  constructor
  · intro hlast heq
    rw [hlast] at heq
    exact hv (Option.some.inj heq)
  · exact (getLast?_of_shown hshown).resolve_right

end Sightings
