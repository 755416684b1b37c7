import LabProbe.Lib.Dict

/-!
# The latest value of a key in a stream

A stream carries values under keys; a reader goes by the last one of each.
-/

namespace Latest

variable {κ ν : Type} [DecidableEq κ] {k : κ} {l l' : List (κ × ν)}

def last (k : κ) (l : List (κ × ν)) : Option ν := Dict.get? l.reverse k

@[simp] theorem last_nil : last k ([] : List (κ × ν)) = none := rfl

@[simp] theorem last_append : last k (l ++ l') = (last k l').or (last k l) := by
  rw [last, List.reverse_append, Dict.get?_append]
  rfl

@[simp] theorem last_singleton (e : κ × ν) : last k [e] = if e.1 = k then some e.2 else none := by
  simp [last, Dict.get?]

theorem last_eq_get? (h : (Dict.keys l).Nodup) : last k l = Dict.get? l k :=
  (Dict.get?_perm h (List.reverse_perm l).symm k).symm

theorem last_eq_none (h : k ∉ Dict.keys l) : last k l = none := by
  rw [last, Dict.get?_eq_none]
  simpa [Dict.keys] using h

theorem last_isSome : (last k l).isSome ↔ k ∈ Dict.keys l := by
  rw [last, Dict.get?_isSome]
  simp [Dict.keys]

theorem last_replicate (n : Nat) (e : κ × ν) :
    last k (List.replicate n e) = if n ≠ 0 ∧ e.1 = k then some e.2 else none := by
  induction n with
  | zero => simp
  | succ n ih =>
    rw [List.replicate_succ', last_append, ih, last_singleton]
    split <;> simp_all

/-- Values that come again and again, one after the other, come last as if each came once. -/
theorem last_flatMap_replicate {α : Type} {xs : List α} (n : α → Nat) (f : α → κ × ν)
    (h : ∀ x ∈ xs, (f x).1 = k → n x ≠ 0) :
    last k (xs.flatMap fun x => List.replicate (n x) (f x)) = last k (xs.map f) := by
  induction xs with
  | nil => rfl
  | cons x xs ih =>
    have hx : last k (List.replicate (n x) (f x)) = last k [f x] := by
      rw [last_replicate, last_singleton]
      by_cases hkey : (f x).1 = k
      · rw [if_pos ⟨h x List.mem_cons_self hkey, hkey⟩, if_pos hkey]
      · rw [if_neg (fun hboth => hkey hboth.2), if_neg hkey]
    rw [List.flatMap_cons, List.map_cons, last_append, ih fun y hy => h y (List.mem_cons_of_mem _ hy),
      hx, ← last_append, List.singleton_append]

end Latest
