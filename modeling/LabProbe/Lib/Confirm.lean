import Mathlib.Algebra.Order.Field.Rat
import Mathlib.Data.List.Basic

/-!
# Values confirmed by two samples

A history of samples confirms a value when two good samples of it, of
different times, have only quiet samples between them. Whoever watches the
history one sample at a time needs to remember the last good sample and that
only quiet ones have followed it.
-/

namespace Confirm

variable {β τ : Type} {good quiet : β → Prop} {time : β → τ} {l : List β} {a : β} {t : τ}

/-- Two good samples of different times with only quiet ones between. -/
def Confirmed (good quiet : β → Prop) (time : β → τ) (l : List β) : Prop :=
  ∃ pre a mid b post, l = pre ++ a :: (mid ++ b :: post) ∧ good a ∧ good b ∧ time a ≠ time b ∧
    ∀ c ∈ mid, quiet c

/-- A good sample of time `t`, and only quiet ones since. -/
def Seen (good quiet : β → Prop) (time : β → τ) (l : List β) (t : τ) : Prop :=
  ∃ pre a post, l = pre ++ a :: post ∧ good a ∧ time a = t ∧ ∀ c ∈ post, quiet c

theorem seen_last (ha : good a) : Seen good quiet time (l ++ [a]) (time a) :=
  ⟨l, a, [], rfl, ha, rfl, fun _ h => nomatch h⟩

theorem Seen.append (h : Seen good quiet time l t) (ha : quiet a) :
    Seen good quiet time (l ++ [a]) t := by
  obtain ⟨pre, b, post, rfl, hb, rfl, hpost⟩ := h
  refine ⟨pre, b, post ++ [a], by simp, hb, rfl, ?_⟩
  intro c hc
  rcases List.mem_append.mp hc with hc | hc
  · exact hpost c hc
  · exact List.mem_singleton.mp hc ▸ ha

theorem Seen.confirm (h : Seen good quiet time l t) (ha : good a) (ht : t ≠ time a) :
    Confirmed good quiet time (l ++ [a]) := by
  obtain ⟨pre, b, post, rfl, hb, rfl, hpost⟩ := h
  exact ⟨pre, b, post, a, [], by simp, hb, ha, ht, hpost⟩

theorem Confirmed.append (h : Confirmed good quiet time l) (l' : List β) :
    Confirmed good quiet time (l ++ l') := by
  obtain ⟨pre, a, mid, b, post, rfl, ha, hb, ht, hmid⟩ := h
  exact ⟨pre, a, mid, b, post ++ l', by simp, ha, hb, ht, hmid⟩

theorem Confirmed.count [DecidablePred good] (h : Confirmed good quiet time l) :
    2 ≤ l.countP good := by
  obtain ⟨pre, a, mid, b, post, rfl, ha, hb, -, -⟩ := h
  simp only [List.countP_append, List.countP_cons, ha, hb, decide_true, if_true]
  omega

end Confirm
