import LabProbe.Py.Json

/-!
# The merge of two dashboards

`merge_dashboard` of `router_realtime_stability_patch.py`: the later dashboard is
laid over a copy of the earlier one, object by object, and what it has no value
for stays.
-/

namespace LabProbe.Router.Dashboard

open Py Json

-- ---------------------------------------------------------------------------
-- Paths
-- ---------------------------------------------------------------------------

def lookup : Json → List String → Option Json
  | value, [] => some value
  | .dict d, key :: path =>
    match Dict.get? d key with
    | some value => lookup value path
    | none => none
  | _, _ :: _ => none

/-- Where the objects of a value end along a path, and the rest of the path; a
missing key is null. -/
def reached : Json → List String → Json × List String
  | .dict d, key :: path => reached (Json.get d key) path
  | value, path => (value, path)

def isEmpty : Json → Bool
  | .null => true
  | .str s => strip s == ""
  | .list xs => xs.isEmpty
  | .dict d => d.isEmpty
  | _ => false

def isFilled : Json → Bool
  | .str s => strip s != ""
  | .list xs => !xs.isEmpty
  | .dict d => !d.isEmpty
  | _ => false

/-- A scalar or a list that is not empty. -/
def isFirm : Json → Bool
  | .dict _ => false
  | value => !isEmpty value

variable {value old held x v : Json} {path rest : List String}

theorem reached_length (value : Json) (path : List String) :
    (reached value path).2.length ≤ path.length := by
  induction path generalizing value with
  | nil => cases value <;> simp [reached]
  | cons key path ih =>
    cases value with
    | dict d => exact (ih _).trans (Nat.le_succ _)
    | _ => exact le_rfl

def isFilledDict : Json → Bool
  | .dict d => !d.isEmpty
  | _ => false

def isFilledList : Json → Bool
  | .list xs => !xs.isEmpty
  | _ => false

theorem isFilled_of_lookup (hx : lookup held rest = some x) (hfilled : isFilled x = true) :
    isFilled held = true ∧ (rest ≠ [] → isFilledDict held = true) := by
  cases rest with
  | nil =>
    obtain rfl : held = x := by simpa [lookup] using hx
    exact ⟨hfilled, fun h => absurd rfl h⟩
  | cons key rest =>
    cases held with
    | dict d =>
      have hd : d ≠ [] := by
        rintro rfl
        simp [lookup, Dict.get?] at hx
      simp [isFilled, isFilledDict, hd]
    | _ => simp [lookup] at hx

theorem not_isFilled (hv : isEmpty v = true) : isFilled v = false := by
  cases v <;> simp_all [isEmpty, isFilled]

theorem lookup_dict (d : Entries) (key : String) (path : List String) :
    lookup (.dict d) (key :: path) = (Dict.get? d key).bind (lookup · path) := by
  rw [lookup]
  cases Dict.get? d key <;> rfl

theorem reached_rest (hreached : reached value path = (v, path)) : value = v := by
  cases path with
  | nil => cases value <;> simpa [reached] using hreached
  | cons key path =>
    cases value with
    | dict d =>
      have hlength := reached_length (Json.get d key) path
      rw [reached] at hreached
      simp [hreached] at hlength
    | _ => simpa [reached] using hreached

-- ---------------------------------------------------------------------------
-- The merge
-- ---------------------------------------------------------------------------

variable [Unicode]

def text (value : Json) : String :=
  let text := strip (Json.toStr (value.or (.str "")))
  if ["none", "null", "--"].contains (Unicode.lower text) then "" else text

mutual
def mergeKey (target : Entries) (key : String) : Json → Entries
  | .dict source =>
    if source.isEmpty && isFilledDict (get target key) then target
    else Dict.set target key (.dict (mergeEntries (get target key).asDict source))
  | .null => if (Dict.get? target key).isSome then target else Dict.set target key .null
  | .str s =>
    if strip s = "" ∧ text (get target key) ≠ "" then target else Dict.set target key (.str s)
  | .list xs =>
    if xs.isEmpty && isFilledList (get target key) then target else Dict.set target key (.list xs)
  | value => Dict.set target key value

/-- `merge`. -/
def mergeEntries (target : Entries) : List (String × Json) → Entries
  | [] => target
  | (key, value) :: source => mergeEntries (mergeKey target key value) source
end

def mergeDashboard (previous latest : Json) : Entries := mergeEntries previous.asDict latest.asDict

-- ---------------------------------------------------------------------------
-- Keys
-- ---------------------------------------------------------------------------

def mergeValue (old : Option Json) : Json → Json
  | .dict source =>
    if source.isEmpty && isFilledDict (old.getD .null) then old.getD .null
    else .dict (mergeEntries (old.getD .null).asDict source)
  | .null => old.getD .null
  | .str s => if strip s = "" ∧ text (old.getD .null) ≠ "" then old.getD .null else .str s
  | .list xs => if xs.isEmpty && isFilledList (old.getD .null) then old.getD .null else .list xs
  | value => value

theorem text_null : text .null = "" := by
  simp [text, Json.or, truthy, Json.toStr, strip_empty]

omit [Unicode] in
theorem skip_eq {target : Entries} {key : String} {skipped : Prop} [Decidable skipped]
    (h : Dict.get? target key = none → ¬skipped) (value : Json) :
    (if skipped then target else Dict.set target key value) =
      Dict.set target key (if skipped then (Dict.get? target key).getD .null else value) := by
  by_cases hskipped : skipped
  · cases hold : Dict.get? target key with
    | none => exact absurd hskipped (h hold)
    | some old => simp [hskipped, Dict.set_eq_self hold]
  · simp [hskipped]

theorem mergeKey_eq (target : Entries) (key : String) (value : Json) :
    mergeKey target key value = Dict.set target key (mergeValue (Dict.get? target key) value) := by
  cases value with
  | dict source =>
    simp only [mergeKey, mergeValue, Json.get]
    exact skip_eq (fun hnone => by simp [hnone, isFilledDict]) _
  | null =>
    simp only [mergeKey, mergeValue]
    cases hold : Dict.get? target key with
    | none => rfl
    | some old => exact (Dict.set_eq_self hold).symm
  | str s =>
    simp only [mergeKey, mergeValue, Json.get]
    exact skip_eq (fun hnone => by simp [hnone, text_null]) _
  | list xs =>
    simp only [mergeKey, mergeValue, Json.get]
    exact skip_eq (fun hnone => by simp [hnone, isFilledList]) _
  | _ => rfl

theorem get?_mergeEntries {source : Entries} (hs : (Dict.keys source).Nodup) (target : Entries)
    (key : String) : Dict.get? (mergeEntries target source) key =
      match Dict.get? source key with
      | some value => some (mergeValue (Dict.get? target key) value)
      | none => Dict.get? target key := by
  induction source generalizing target with
  | nil => rfl
  | cons entry source ih =>
    obtain ⟨first, value⟩ := entry
    obtain ⟨hfirst, hs⟩ := List.nodup_cons.mp hs
    rw [mergeEntries, ih hs, mergeKey_eq, Dict.get?_set]
    by_cases hkey : first = key
    · subst hkey
      simp [Dict.get?, Dict.get?_eq_none.mpr hfirst]
    · simp [Dict.get?, hkey]

theorem mergeEntries_of_keys {target : Entries} {source : Entries}
    (h : ∀ key value, (key, value) ∈ source → mergeKey target key value = target) :
    mergeEntries target source = target := by
  induction source with
  | nil => rfl
  | cons entry source ih =>
    obtain ⟨key, value⟩ := entry
    rw [mergeEntries, h key value List.mem_cons_self]
    exact ih fun key value hmem => h key value (List.mem_cons_of_mem _ hmem)

-- ---------------------------------------------------------------------------
-- One value over another
-- ---------------------------------------------------------------------------

/-- Whether the merge keeps `held` where an empty value is laid over it. -/
def outlasts (held : Json) : Json → Bool
  | .null => true
  | .str _ => text held != ""
  | .list _ => isFilledList held
  | .dict _ => isFilledDict held
  | _ => false

theorem mergeValue_empty (hv : isEmpty v = true) (old : Json) :
    mergeValue (some old) v = if outlasts old v then old else v := by
  cases v with
  | null => rfl
  | str s =>
    have hs : strip s = "" := by simpa [isEmpty] using hv
    simp [mergeValue, outlasts, hs]
  | list xs =>
    obtain rfl : xs = [] := by simpa [isEmpty] using hv
    rfl
  | dict d =>
    obtain rfl : d = [] := by simpa [isEmpty] using hv
    cases old with
    | dict held => cases held <;> rfl
    | _ => rfl
  | _ => simp [isEmpty] at hv

theorem mergeValue_firm (hv : isFirm v = true) (old : Option Json) : mergeValue old v = v := by
  cases v with
  | null => simp [isFirm, isEmpty] at hv
  | str s =>
    have hs : strip s ≠ "" := by simpa [isFirm, isEmpty] using hv
    simp [mergeValue, hs]
  | list xs =>
    have hxs : xs ≠ [] := by simpa [isFirm, isEmpty] using hv
    simp [mergeValue, hxs]
  | dict d => simp [isFirm] at hv
  | _ => rfl

theorem mergeValue_dict (old source : Entries) :
    mergeValue (some (.dict old)) (.dict source) = .dict (mergeEntries old source) := by
  cases source with
  | nil => cases old <;> rfl
  | cons entry source => rfl

theorem lookup_mergeValue_empty (hwf : value.wf = true) (hheld : lookup old path = some held)
    (hx : lookup held rest = some x) (hfilled : isFilled x = true)
    (hreached : reached value (path ++ rest) = (v, rest)) (hempty : isEmpty v = true) :
    lookup (mergeValue (some old) value) (path ++ rest) = some x ↔ outlasts held v = true := by
  induction path generalizing old value with
  | nil =>
    obtain rfl : old = held := by simpa [lookup] using hheld
    obtain rfl := reached_rest hreached
    rw [mergeValue_empty hempty, List.nil_append]
    by_cases hout : outlasts old value = true
    · simp [hout, hx]
    · have hlost : lookup value rest ≠ some x := fun h => by
        simpa [not_isFilled hempty] using (isFilled_of_lookup h hfilled).1
      simp [hout, hlost]
  | cons key path ih =>
    cases old with
    | dict d =>
      rw [lookup_dict, Option.bind_eq_some_iff] at hheld
      obtain ⟨inner, hinner, hheld⟩ := hheld
      cases value with
      | dict source =>
        obtain ⟨hs, hparts⟩ := wf_dict.mp hwf
        rw [mergeValue_dict, List.cons_append, lookup_dict, get?_mergeEntries hs, hinner]
        rw [List.cons_append, reached, Json.get] at hreached
        cases hsource : Dict.get? source key with
        | none =>
          rw [hsource] at hreached
          have hnull : reached .null (path ++ rest) = (.null, path ++ rest) := by
            cases path ++ rest <;> rfl
          obtain ⟨rfl, hrest⟩ := Prod.mk.injEq _ _ _ _ ▸ hnull.symm.trans hreached
          obtain rfl := List.append_left_eq_self.mp hrest
          obtain rfl : inner = held := by simpa [lookup] using hheld
          simp [hx, outlasts]
        | some part =>
          rw [hsource] at hreached
          exact ih (hparts key part (Dict.mem_of_get? hsource)) hheld hreached
      | _ =>
        have hlength := congrArg (fun r => r.2.length) hreached
        simp [reached] at hlength
        omega
    | _ => simp [lookup] at hheld

theorem lookup_mergeValue_firm (hwf : value.wf = true) (hv : lookup value path = some v)
    (hfirm : isFirm v = true) (old : Option Json) :
    lookup (mergeValue old value) path = some v := by
  induction path generalizing old value with
  | nil =>
    obtain rfl : value = v := by simpa [lookup] using hv
    rw [mergeValue_firm hfirm, lookup]
  | cons key path ih =>
    cases value with
    | dict source =>
      obtain ⟨hs, hparts⟩ := wf_dict.mp hwf
      rw [lookup_dict, Option.bind_eq_some_iff] at hv
      obtain ⟨part, hpart, hv⟩ := hv
      have hsource : source.isEmpty = false := by
        cases source with
        | nil => simp [Dict.get?] at hpart
        | cons => rfl
      rw [mergeValue, hsource, Bool.false_and, if_neg Bool.false_ne_true, lookup_dict,
        get?_mergeEntries hs, hpart]
      exact ih (hparts key part (Dict.mem_of_get? hpart)) hv _
    | _ => simp [lookup] at hv

-- ---------------------------------------------------------------------------
-- Merging once more
-- ---------------------------------------------------------------------------

theorem mergeEntries_twice {source : Entries} (hs : (Dict.keys source).Nodup)
    (h : ∀ key value, (key, value) ∈ source → ∀ old,
      mergeValue (some (mergeValue old value)) value = mergeValue old value) (target : Entries) :
    mergeEntries (mergeEntries target source) source = mergeEntries target source := by
  refine mergeEntries_of_keys fun key value hmem => ?_
  have hkey : Dict.get? (mergeEntries target source) key =
      some (mergeValue (Dict.get? target key) value) := by
    rw [get?_mergeEntries hs, Dict.get?_of_mem hs hmem]
  rw [mergeKey_eq, hkey, h key value hmem]
  exact Dict.set_eq_self hkey

theorem mergeValue_twice (value : Json) (hwf : value.wf = true) (old : Option Json) :
    mergeValue (some (mergeValue old value)) value = mergeValue old value := by
  induction value using Json.induct generalizing old with
  | dict source ih =>
    obtain ⟨hs, hparts⟩ := wf_dict.mp hwf
    have hinner := mergeEntries_twice hs fun key value hmem old =>
      ih key value hmem (hparts key value hmem) old
    by_cases hskip : source.isEmpty && isFilledDict (old.getD .null)
    · simp only [mergeValue, hskip, if_true, Option.getD_some]
    · have hmerged : mergeValue old (.dict source) =
          .dict (mergeEntries (old.getD .null).asDict source) := by
        rw [mergeValue, if_neg hskip]
      rw [hmerged, mergeValue_dict, hinner]
  | str s =>
    by_cases hskip : strip s = "" ∧ text (old.getD .null) ≠ ""
    · simp only [mergeValue, if_pos hskip, Option.getD_some]
    · simp only [mergeValue, if_neg hskip, Option.getD_some]
      split <;> rfl
  | list xs =>
    by_cases hskip : xs.isEmpty && isFilledList (old.getD .null)
    · simp only [mergeValue, hskip, if_true, Option.getD_some]
    · simp only [mergeValue, if_neg hskip, Option.getD_some]
      split <;> rfl
  | _ => rfl

end LabProbe.Router.Dashboard
