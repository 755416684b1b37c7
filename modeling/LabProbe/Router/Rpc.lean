import LabProbe.Py.Json

/-!
# What `rpc` sends

Before a call the client takes the runtime fields out of its data and trims
every string in it, at every depth. `withoutRuntimeFields` only does the
first.
-/

namespace LabProbe.Router

open Py Py.Json

variable {f g : String → String}

def runtimeFields : List String := ["configId", "configTime", "currentTime"]

mutual
def rewrite (f : String → String) : Json → Json
  | .list xs => .list (rewriteList f xs)
  | .dict d => .dict (rewriteEntries f d)
  | .str s => .str (f s)
  | value => value
def rewriteList (f : String → String) : List Json → List Json
  | [] => []
  | x :: xs => rewrite f x :: rewriteList f xs
def rewriteEntries (f : String → String) : List (String × Json) → List (String × Json)
  | [] => []
  | (k, v) :: d =>
    if runtimeFields.contains k then rewriteEntries f d
    else (k, rewrite f v) :: rewriteEntries f d
end

def deepStripRuntimeFields : Json → Json := rewrite strip

def withoutRuntimeFields : Json → Json := rewrite id

mutual
def strings : Json → List String
  | .list xs => stringsList xs
  | .dict d => stringsEntries d
  | .str s => [s]
  | _ => []
def stringsList : List Json → List String
  | [] => []
  | x :: xs => strings x ++ stringsList xs
def stringsEntries : List (String × Json) → List String
  | [] => []
  | (k, v) :: d =>
    if runtimeFields.contains k then stringsEntries d else strings v ++ stringsEntries d
end

attribute [local grind =] rewrite rewriteList rewriteEntries strings stringsList stringsEntries

theorem rewriteEntries_eq (f : String → String) (d : Entries) :
    rewriteEntries f d = (d.filter fun e => !runtimeFields.contains e.1).map fun e =>
      (e.1, rewrite f e.2) := by
  induction d with
  | nil => rfl
  | cons e d ih =>
    obtain ⟨k, v⟩ := e
    simp only [rewriteEntries, List.filter_cons]
    cases runtimeFields.contains k with
    | true => simp only [if_true, Bool.not_true, Bool.false_eq_true, if_false, ih]
    | false =>
      simp only [Bool.false_eq_true, if_false, Bool.not_false, if_true, List.map_cons, ih]

theorem rewriteList_eq (f : String → String) (xs : List Json) :
    rewriteList f xs = xs.map (rewrite f) := by
  induction xs with
  | nil => rfl
  | cons x xs ih => rw [rewriteList, ih, List.map_cons]

theorem get?_rewriteEntries (f : String → String) (d : Entries) (key : String) :
    Dict.get? (rewriteEntries f d) key =
      if runtimeFields.contains key then none else (Dict.get? d key).map (rewrite f) := by
  rw [rewriteEntries_eq, Dict.get?_map, Dict.get?_filter_key fun k => !runtimeFields.contains k]
  cases runtimeFields.contains key <;> rfl

theorem rewrite_rewrite (value : Json) : rewrite f (rewrite g value) = rewrite (f ∘ g) value := by
  induction value using induct with
  | list xs ih =>
    simp only [rewrite, rewriteList_eq, List.map_map, Json.list.injEq]
    exact List.map_congr_left ih
  | dict d ih =>
    simp only [rewrite, Json.dict.injEq]
    induction d with
    | nil => rfl
    | cons e d ihs =>
      obtain ⟨k, v⟩ := e
      have hd := ihs fun k v h => ih k v (List.mem_cons_of_mem _ h)
      simp only [rewriteEntries]
      split
      · exact hd
      · rename_i hk
        simp only [rewriteEntries, hk, hd, ih k v List.mem_cons_self]
        simp
  | _ => simp [rewrite]

theorem erase_rewriteEntries (f : String → String) (d : Entries) (key : String) :
    Dict.erase (rewriteEntries f d) key = rewriteEntries f (Dict.erase d key) := by
  simp only [rewriteEntries_eq, Dict.erase, List.filter_map, List.filter_filter]
  congr 1
  exact List.filter_congr fun e _ => Bool.and_comm _ _

theorem rewrite_eq_iff (value : Json) :
    rewrite f value = rewrite g value ↔ ∀ s ∈ strings value, f s = g s := by
  induction value using induct with
  | str s => simp [rewrite, strings]
  | list xs ih =>
    simp only [rewrite, strings, Json.list.injEq]
    induction xs with
    | nil => simp [rewriteList, stringsList]
    | cons x xs ihs =>
      obtain ⟨hx, hxs⟩ := List.forall_mem_cons.mp ih
      simp only [rewriteList, stringsList, List.cons.injEq, hx, ihs hxs, List.forall_mem_append]
  | dict d ih =>
    simp only [rewrite, strings, Json.dict.injEq]
    induction d with
    | nil => simp [rewriteEntries, stringsEntries]
    | cons e d ihs =>
      obtain ⟨k, v⟩ := e
      have hv := ih k v List.mem_cons_self
      have hd := ihs fun k v h => ih k v (List.mem_cons_of_mem _ h)
      simp only [rewriteEntries, stringsEntries]
      split
      · exact hd
      · simp only [List.cons.injEq, Prod.mk.injEq, true_and, hv, hd, List.forall_mem_append]
  | _ => simp [rewrite, strings]

theorem rewriteEntries_eq_iff (d : Entries) :
    rewriteEntries f d = rewriteEntries g d ↔ ∀ s ∈ stringsEntries d, f s = g s := by
  have h := rewrite_eq_iff (f := f) (g := g) (.dict d)
  simpa only [rewrite, strings, Json.dict.injEq] using h

end LabProbe.Router
