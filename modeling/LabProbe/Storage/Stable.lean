import LabProbe.Storage.Diff

/-!
# Comparable forms and equality

The comparable forms of devices and statuses only drop entries, and drop
equal entries alike: they respect equality, so it does not matter that the
stored document is read back with its keys in another order, and dropping
twice drops nothing more.
-/

namespace LabProbe.Storage

open Py Py.Json

-- ---------------------------------------------------------------------------
-- Dropping entries
-- ---------------------------------------------------------------------------

def keepEntries (p : String → Json → Bool) : Json → Json
  | .dict d => .dict (d.filter fun e => p e.1 e.2)
  | v => v

/-- A choice of entries that equal values share. -/
def Respects (p : String → Json → Bool) : Prop := ∀ k v w, v.eq w → p k v = p k w

variable {p q : String → Json → Bool} {a b : Json}

attribute [local grind =] keepEntries num?

theorem keepEntries_wf (ha : a.wf) : (keepEntries p a).wf := by
  cases a with
  | dict d =>
    obtain ⟨hn, hv⟩ := wf_dict.mp ha
    exact wf_dict.mpr
      ⟨Dict.nodup_keys_filter _ hn, fun k v h => hv k v (List.mem_of_mem_filter h)⟩
  | _ => exact ha

theorem keepEntries_twice : keepEntries p (keepEntries p a) = keepEntries p a := by
  cases a with
  | dict d => simp [keepEntries, List.filter_filter]
  | _ => rfl

theorem keepEntries_comm :
    keepEntries p (keepEntries q a) = keepEntries q (keepEntries p a) := by
  cases a with
  | dict d => simp [keepEntries, List.filter_filter, Bool.and_comm]
  | _ => rfl

/-- Equal objects stay equal when equal entries are dropped. -/
theorem keepEntries_eq (hp : Respects p) (ha : a.wf) (hb : b.wf) (h : a.eq b) :
    (keepEntries p a).eq (keepEntries p b) := by
  cases a with
  | dict d =>
    obtain ⟨d', rfl⟩ := eq_dict h
    have hn := (wf_dict.mp ha).1
    have hn' := (wf_dict.mp hb).1
    rw [keepEntries, keepEntries, eq_dict_rel (Dict.nodup_keys_filter _ hn)]
    rw [eq_dict_rel hn] at h
    intro k
    rw [Dict.get?_filter _ hn, Dict.get?_filter _ hn']
    have hk := h k
    generalize Dict.get? d k = o, Dict.get? d' k = o' at hk
    cases hk with
    | none => exact .none
    | @some v w hvw =>
      simp only [Option.filter_some, hp k v w hvw]
      split
      · exact .some hvw
      · exact .none
  | null =>
    rw [eq_null.mp h]
    rfl
  | str s =>
    rw [eq_str.mp h]
    exact eq_str.mpr rfl
  | list xs =>
    obtain ⟨ys, rfl⟩ := eq_list h
    exact h
  | bool _ | int _ | float _ _ =>
    have hb := (eq_num rfl).mp h
    cases b with
    | dict d => simp [num?] at hb
    | _ => exact h

-- ---------------------------------------------------------------------------
-- Devices
-- ---------------------------------------------------------------------------

attribute [local grind =] stableDevice revisionDevicePayload isLongText stableStatus stableStatusList
  stableStatusEntries

variable [Unicode]

theorem stableDevice_eq (a : Json) :
    stableDevice a = keepEntries (fun k _ => stableDeviceKey k) a := by
  cases a <;> rfl

omit [Unicode] in
theorem revisionDevicePayload_eq (a : Json) : revisionDevicePayload a =
    keepEntries (fun k v => !bulkyDeviceKeys.contains k && !isLongText v) a := by
  cases a <;> rfl

omit [Unicode] in
theorem isLongText_eq (h : a.eq b) : isLongText a = isLongText b := by
  cases a with
  | null => rw [eq_null.mp h]
  | str s => rw [eq_str.mp h]
  | list xs => obtain ⟨ys, rfl⟩ := eq_list h; rfl
  | dict d => obtain ⟨d', rfl⟩ := eq_dict h; rfl
  | bool _ | int _ | float _ _ =>
    have hb := (eq_num rfl).mp h
    cases b with
    | str s => simp [num?] at hb
    | _ => rfl

/-- What a client compares of a device: the comparable part of the recorded part. -/
def stableCard (a : Json) : Json := stableDevice (revisionDevicePayload a)

theorem stableCard_wf (ha : a.wf) : (stableCard a).wf := by
  rw [stableCard, stableDevice_eq, revisionDevicePayload_eq]
  exact keepEntries_wf (keepEntries_wf ha)

theorem stableCard_eq (ha : a.wf) (hb : b.wf) (h : a.eq b) : (stableCard a).eq (stableCard b) := by
  simp only [stableCard, stableDevice_eq, revisionDevicePayload_eq]
  refine keepEntries_eq (fun _ _ _ _ => rfl) (keepEntries_wf ha) (keepEntries_wf hb) ?_
  exact keepEntries_eq (fun k v w hvw => by rw [isLongText_eq hvw]) ha hb h

/-- Devices with equal comparable parts look equal to a client. -/
theorem stableCard_of_stable (ha : a.wf) (hb : b.wf)
    (h : (stableDevice a).eq (stableDevice b)) : (stableCard a).eq (stableCard b) := by
  simp only [stableCard, stableDevice_eq, revisionDevicePayload_eq] at h ⊢
  rw [keepEntries_comm, keepEntries_comm (a := b)]
  exact keepEntries_eq (fun k v w hvw => by rw [isLongText_eq hvw]) (keepEntries_wf ha)
    (keepEntries_wf hb) h

theorem stableCard_payload (a : Json) : stableCard (revisionDevicePayload a) = stableCard a := by
  rw [stableCard, stableCard, revisionDevicePayload_eq, revisionDevicePayload_eq, keepEntries_twice]

omit [Unicode] in
theorem revisionDevicePayload_wf (ha : a.wf) : (revisionDevicePayload a).wf := by
  rw [revisionDevicePayload_eq]
  exact keepEntries_wf ha

-- ---------------------------------------------------------------------------
-- Statuses
-- ---------------------------------------------------------------------------

omit [Unicode] in
theorem stableStatusList_eq (xs : List Json) :
    stableStatusList xs = xs.map (stableStatus false) := by
  induction xs with
  | nil => rfl
  | cons x xs ih => simp [stableStatusList, ih]

omit [Unicode] in
theorem stableStatusEntries_eq (root : Bool) (d : Entries) :
    stableStatusEntries root d =
      (d.filter fun e => stableStatusKey root e.1).map fun e => (e.1, stableStatus false e.2) := by
  induction d with
  | nil => rfl
  | cons e d ih =>
    obtain ⟨k, v⟩ := e
    by_cases hk : stableStatusKey root k <;> simp [stableStatusEntries, hk, ih]

omit [Unicode] in
theorem stableStatus_list (root : Bool) (xs : List Json) :
    stableStatus root (.list xs) = .list (xs.map (stableStatus false)) := by
  rw [stableStatus, stableStatusList_eq]

omit [Unicode] in
theorem stableStatus_dict (root : Bool) (d : Entries) : stableStatus root (.dict d) =
    .dict ((d.filter fun e => stableStatusKey root e.1).map
      fun e => (e.1, stableStatus false e.2)) := by
  rw [stableStatus, stableStatusEntries_eq]

omit [Unicode] in
theorem stableStatus_wf {root : Bool} (ha : a.wf) : (stableStatus root a).wf := by
  induction a using induct generalizing root with
  | list xs ih =>
    rw [wf_list] at ha
    rw [stableStatus_list, wf_list]
    simpa using fun x hx => ih x hx (ha x hx)
  | dict d ih =>
    obtain ⟨hn, hv⟩ := wf_dict.mp ha
    rw [stableStatus_dict, wf_dict, Dict.keys_map]
    refine ⟨Dict.nodup_keys_filter _ hn, fun k w h => ?_⟩
    obtain ⟨⟨k', v⟩, hm, heq⟩ := List.mem_map.mp h
    cases heq
    have hm := List.mem_of_mem_filter hm
    exact ih k' v hm (hv k' v hm)
  | _ => exact ha

omit [Unicode] in
theorem stableStatus_twice (root : Bool) (a : Json) :
    stableStatus root (stableStatus root a) = stableStatus root a := by
  induction a using induct generalizing root with
  | list xs ih =>
    rw [stableStatus_list, stableStatus_list, List.map_map]
    refine congrArg Json.list (List.map_congr_left fun x hx => ih x hx false)
  | dict d ih =>
    rw [stableStatus_dict, stableStatus_dict, List.filter_map, List.filter_filter, List.map_map]
    simp only [Function.comp_def, Bool.and_self]
    refine congrArg Json.dict (List.map_congr_left fun e he => ?_)
    exact Prod.ext rfl (ih e.1 e.2 (List.mem_of_mem_filter he) false)
  | _ => rfl

omit [Unicode] in
theorem stableStatus_eq {root : Bool} (ha : a.wf) (hb : b.wf) (h : a.eq b) :
    (stableStatus root a).eq (stableStatus root b) := by
  induction a using induct generalizing root b with
  | null =>
    rw [eq_null.mp h]
    rfl
  | str s =>
    rw [eq_str.mp h]
    exact eq_str.mpr rfl
  | bool _ | int _ | float _ _ =>
    have hb := (eq_num rfl).mp h
    cases b with
    | list _ | dict _ => simp [num?] at hb
    | _ => exact h
  | list xs ih =>
    obtain ⟨ys, rfl⟩ := eq_list h
    rw [wf_list] at ha hb
    rw [eq_list_iff] at h
    rw [stableStatus_list, stableStatus_list, eq_list_iff, List.forall₂_map_left_iff,
      List.forall₂_map_right_iff]
    induction h with
    | nil => exact .nil
    | cons hx _ ihl =>
      exact .cons (ih _ (by simp) (ha _ (by simp)) (hb _ (by simp)) hx)
        (ihl (fun z hz => ih z (List.mem_cons_of_mem _ hz))
          (fun z hz => ha z (List.mem_cons_of_mem _ hz))
          (fun z hz => hb z (List.mem_cons_of_mem _ hz)))
  | dict d ih =>
    obtain ⟨d', rfl⟩ := eq_dict h
    obtain ⟨hn, hv⟩ := wf_dict.mp ha
    obtain ⟨hn', hv'⟩ := wf_dict.mp hb
    rw [eq_dict_rel hn] at h
    rw [stableStatus_dict, stableStatus_dict, eq_dict_rel (by
      rw [Dict.keys_map]; exact Dict.nodup_keys_filter _ hn)]
    intro k
    rw [Dict.get?_map, Dict.get?_map, Dict.get?_filter _ hn, Dict.get?_filter _ hn']
    have hk := h k
    generalize hx : Dict.get? d k = o, hy : Dict.get? d' k = o' at hk
    cases hk with
    | none => exact .none
    | @some v w hvw =>
      simp only [Option.filter_some]
      split
      · have hmx := Dict.mem_of_get? hx
        have hmy := Dict.mem_of_get? hy
        exact .some (ih k v hmx (hv k v hmx) (hv' k w hmy) hvw)
      · exact .none

end LabProbe.Storage
