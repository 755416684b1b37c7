import Mathlib.Algebra.Order.Field.Rat
import Mathlib.Data.List.Chain

/-!
# Presence

Someone looks now and again which keys are present and logs the arrivals and
the departures between two looks. Of each key the log tells by turns that it
has come and that it has gone, and it ends with what was seen last. A table
that keeps only the end of the log does the same for the keys it still names.
-/

namespace Presence

variable {κ : Type} [DecidableEq κ]

def changes (before after : List κ) : List (κ × Bool) :=
  (after.filter (· ∉ before)).map (·, true) ++ (before.filter (· ∉ after)).map (·, false)

def ofKey (k : κ) (log : List (κ × Bool)) : List Bool :=
  (log.filter fun entry => entry.1 = k).map Prod.snd

theorem ofKey_append (k : κ) (l l' : List (κ × Bool)) :
    ofKey k (l ++ l') = ofKey k l ++ ofKey k l' := by
  rw [ofKey, List.filter_append, List.map_append]
  rfl

theorem ofKey_map {l : List κ} (hl : l.Nodup) (k : κ) (b : Bool) :
    ofKey k (l.map (·, b)) = if k ∈ l then [b] else [] := by
  have hfilter : (l.map (·, b)).filter (fun entry => entry.1 = k) =
      (l.filter fun key => key = k).map (·, b) := List.filter_map
  rw [ofKey, hfilter, List.filter_eq, hl.count]
  split <;> rfl

theorem ofKey_changes {before after : List κ} (hbefore : before.Nodup) (hafter : after.Nodup)
    (k : κ) : ofKey k (changes before after) =
      if k ∈ before then if k ∈ after then [] else [false] else if k ∈ after then [true] else [] := by
  rw [changes, ofKey_append, ofKey_map (hafter.filter _), ofKey_map (hbefore.filter _)]
  simp only [List.mem_filter, decide_eq_true_eq]
  by_cases hb : k ∈ before <;> by_cases ha : k ∈ after <;> simp [hb, ha]

structure Tells (log : List (κ × Bool)) (present : List κ) : Prop where
  alternates : ∀ k, (ofKey k log).IsChain (· ≠ ·)
  last : ∀ k, (ofKey k log).getLast? = some true ↔ k ∈ present

theorem Tells.nil : Tells ([] : List (κ × Bool)) [] where
  alternates _ := .nil
  last _ := by simp [ofKey]

theorem Tells.look {log : List (κ × Bool)} {before after : List κ} (h : Tells log before)
    (hbefore : before.Nodup) (hafter : after.Nodup) : Tells (log ++ changes before after) after := by
  constructor
  · intro k
    rw [ofKey_append, ofKey_changes hbefore hafter, List.isChain_append]
    refine ⟨h.alternates k, ?_, ?_⟩
    · split <;> split <;> simp
    · -- what was told last is what the look finds changed
      intro last hlast first hfirst
      have hknown := h.last k
      rw [Option.mem_def] at hlast
      rw [hlast, Option.some.injEq] at hknown
      split at hfirst <;> split at hfirst <;> simp_all
  · intro k
    have hknown := h.last k
    rw [ofKey_append, ofKey_changes hbefore hafter]
    by_cases hb : k ∈ before <;> by_cases ha : k ∈ after <;> simp_all

theorem ofKey_suffix {table log : List (κ × Bool)} (h : table <:+ log) (k : κ) :
    ofKey k table <:+ ofKey k log := (h.filter _).map _

theorem Tells.suffix_alternates {table log : List (κ × Bool)} {present : List κ}
    (h : Tells log present) (hsuffix : table <:+ log) (k : κ) : (ofKey k table).IsChain (· ≠ ·) :=
  (h.alternates k).suffix (ofKey_suffix hsuffix k)

theorem Tells.suffix_last {table log : List (κ × Bool)} {present : List κ} (h : Tells log present)
    (hsuffix : table <:+ log) {k : κ} {b : Bool} (hlast : (ofKey k table).getLast? = some b) :
    b = true ↔ k ∈ present := by
  obtain ⟨dropped, hsplit⟩ := ofKey_suffix hsuffix k
  have hne : ofKey k table ≠ [] := by
    rintro hnil
    rw [hnil] at hlast
    cases hlast
  rw [← h.last k, ← hsplit, List.getLast?_append_of_ne_nil _ hne, hlast, Option.some.injEq]

end Presence
