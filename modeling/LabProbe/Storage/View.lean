import LabProbe.Lib.Keyed
import LabProbe.Storage.Stable
import LabProbe.Storage.Store

/-!
# The table a client keeps

A client keeps one item per entity and row key. `view` is the table of a
store: the rows of the device lists and the events that are not deleted, the
status, the counts of the devices, and every other recorded document as a
whole. `Same` is the equality a client's copy is held to: of the comparable
parts for devices and the status, of the items themselves for the rest.

A saved document is stored with sorted keys, while its change rows were
computed from the value in memory. The rows agree where the value that names
a row has the same text in both orders, `Identified`.
-/

namespace LabProbe.Storage

open Py Py.Json

abbrev Row := Entity × String

variable [Unicode]

-- ---------------------------------------------------------------------------
-- Tables
-- ---------------------------------------------------------------------------

def liveRow (items : List Json) (key : String) : Option Json :=
  ((Dict.get? (rowMap items) key).filter fun item => !isDeleted item).map .dict

omit [Unicode] in
def itemsOf (value : Json) : List Json := (items? value).getD []

omit [Unicode] in
def deviceItems (field : String) (document : Json) : List Json :=
  itemsOf (getD (asDict document) field (.list []))

omit [Unicode] in
def eventItems (document : Json) : List Json := document.list?.getD []

omit [Unicode] in
def isWhole (key : String) : Bool :=
  !nonRevisionDocuments.contains key && key != "devices.json" && key != "events.json" &&
    key != "state.json"

omit [Unicode] in
/-- The document a row comes from. -/
def owner : Row → Option String
  | (.device, _) | (.onlineDevice, _) | (.deviceMeta, _) => some "devices.json"
  | (.event, _) => some "events.json"
  | (.status, _) => some "state.json"
  | (.document, key) => some key
  | (.system, _) => none

def rowOf (document : Option Json) : Row → Option Json
  | (.device, key) => liveRow (deviceItems "watched" (document.getD .null)) key
  | (.onlineDevice, key) => liveRow (deviceItems "online" (document.getD .null)) key
  | (.deviceMeta, key) =>
    if key = "devices" then deviceMeta? (asDict (document.getD .null)) else none
  | (.event, key) => liveRow (eventItems (document.getD .null)) key
  | (.status, key) => if key = "status" then some (document.getD .null) else none
  | (.document, key) => if isWhole key then document else none
  | (.system, _) => none

def view (documents : List (String × Json)) (row : Row) : Option Json :=
  (owner row).bind fun key => rowOf (Dict.get? documents key) row

/-- What a client's copy is held to, by entity. -/
def Same : Row → Json → Json → Prop
  | (.device, _), a, b | (.onlineDevice, _), a, b => (stableCard a).eq (stableCard b)
  | (.status, _), a, b => (stableStatus true a).eq (stableStatus true b)
  | _, a, b => a.eq b

theorem Same.trans (row : Row) (a b c : Json) (hab : Same row a b) (hbc : Same row b c) :
    Same row a c := by
  obtain ⟨entity, key⟩ := row
  cases entity <;> exact eq_trans hab hbc

theorem Same.refl (row : Row) {a : Json} (ha : a.wf) : Same row a a := by
  obtain ⟨entity, key⟩ := row
  cases entity with
  | device | onlineDevice => exact eq_refl (stableCard_wf ha)
  | status => exact eq_refl (stableStatus_wf ha)
  | _ => exact eq_refl ha

-- ---------------------------------------------------------------------------
-- Change records
-- ---------------------------------------------------------------------------

omit [Unicode] in
/-- What a client does with a record: an upsert and a replace set the row,
a delete removes it, and the baseline does nothing. -/
def record (entity : Entity) (operation : Operation) (key : String) (payload : Json) :
    Option (Keyed.Change Row Json) :=
  match operation with
  | .upsert | .replace => some (.put (entity, key) payload)
  | .delete => some (.remove (entity, key))
  | .baseline => none

omit [Unicode] in
def Revision.record (row : Revision) : Option (Keyed.Change Row Json) :=
  Storage.record row.entity row.operation row.entityKey row.payload

omit [Unicode] in
/-- The record of a change row, whose payload is stored as text. -/
def ChangeRow.record (row : ChangeRow) : Option (Keyed.Change Row Json) :=
  Storage.record row.entity row.operation row.key row.payload.sort

omit [Unicode] in
theorem records_number {sequence : Nat} {clock : Clock} (rows : List ChangeRow) :
    (number sequence clock rows).filterMap Revision.record = rows.filterMap ChangeRow.record := by
  rw [number, List.filterMap_map]
  have h : Revision.record ∘ (fun e : ChangeRow × Nat =>
      ⟨sequence + e.2 + 1, e.1.entity, e.1.operation, e.1.key, e.1.payload.sort, clock.stamp e.2⟩) =
        ChangeRow.record ∘ Prod.fst := rfl
  rw [h, ← List.filterMap_map, List.zipIdx_map_fst]

omit [Unicode] in
theorem record_key {row : ChangeRow} (h : row.record = some c) : c.key = (row.entity, row.key) := by
  obtain ⟨entity, operation, key, payload⟩ := row
  cases operation <;> simp only [ChangeRow.record, record, Option.some.injEq, reduceCtorEq] at h <;>
    subst h <;> rfl

-- ---------------------------------------------------------------------------
-- Rows of a stored document
-- ---------------------------------------------------------------------------

/-- The value that names the row has the same text with its keys sorted. -/
def Identified (item : Entries) : Prop := (rowId item "").sort.toStr = (rowId item "").toStr

omit [Unicode] in
theorem truthy_sort (v : Json) : v.sort.truthy = v.truthy := by
  cases v with
  | list xs => simp [sort_list, truthy]
  | dict d =>
    have hlen : (sorted d).length = d.length := by simpa using (sorted_perm d).length_eq
    have hempty : (sorted d).isEmpty = d.isEmpty := by
      rw [Bool.eq_iff_iff, List.isEmpty_iff_length_eq_zero, hlen, List.isEmpty_iff_length_eq_zero]
    rw [sort_dict, truthy, truthy, hempty]
  | _ => rfl

omit [Unicode] in
theorem get_sorted {d : Entries} (hd : (Dict.keys d).Nodup) (key : String) :
    get (sorted d) key = (get d key).sort := by
  simp only [Json.get, get?_sorted hd]
  cases Dict.get? d key <;> rfl

omit [Unicode] in
theorem getD_sorted {d : Entries} (hd : (Dict.keys d).Nodup) (key : String) (v : Json) :
    getD (sorted d) key v.sort = (getD d key v).sort := by
  simp only [Json.getD, get?_sorted hd]
  cases Dict.get? d key <;> rfl

omit [Unicode] in
theorem sort_or (a b : Json) : (a.or b).sort = a.sort.or b.sort := by
  rw [Json.or, Json.or, truthy_sort]
  split <;> rfl

omit [Unicode] in
theorem rowId_sorted {item : Entries} (hd : (Dict.keys item).Nodup) (fallback : String) :
    rowId (sorted item) fallback = (rowId item fallback).sort := by
  simp only [rowId, get_sorted hd, sort_or]
  rfl

omit [Unicode] in
theorem isDeleted_sorted {item : Entries} (hd : (Dict.keys item).Nodup) :
    isDeleted (sorted item) = isDeleted item := by
  rw [isDeleted, get_sorted hd, truthy_sort, isDeleted]

omit [Unicode] in
theorem rowId_cases (item : Entries) (fallback : String) :
    rowId item fallback = rowId item "" ∨ rowId item fallback = .str fallback := by
  simp only [rowId, Json.or]
  repeat' split
  all_goals simp

theorem rowKey_sorted {item : Entries} (hd : (Dict.keys item).Nodup) (hi : Identified item)
    (fallback : String) : rowKey (sorted item) fallback = rowKey item fallback := by
  have htext : (rowId item fallback).sort.toStr = (rowId item fallback).toStr := by
    rcases rowId_cases item fallback with h | h
    · rw [h]
      exact hi
    · rw [h]
      rfl
  rw [rowKey, rowId_sorted hd, htext, rowKey]

theorem keyedRow_sort {x : Json} (hx : x.wf) (hi : ∀ item, x = .dict item → Identified item)
    (i : Nat) : keyedRow (x.sort, i) = (keyedRow (x, i)).map fun e => (e.1, sorted e.2) := by
  cases x with
  | dict item =>
    have hd := (wf_dict.mp hx).1
    simp [keyedRow, sort_dict, dict?, rowKey_sorted hd (hi item rfl)]
  | list xs => simp [keyedRow, sort_list, dict?]
  | _ => rfl

theorem rowMap_map_sort {items : List Json} (hw : ∀ x ∈ items, x.wf)
    (hi : ∀ item, .dict item ∈ items → Identified item) (key : String) :
    Dict.get? (rowMap (items.map sort)) key = (Dict.get? (rowMap items) key).map sorted := by
  have hrows : (items.map sort).zipIdx.filterMap keyedRow =
      (items.zipIdx.filterMap keyedRow).map fun e => (e.1, sorted e.2) := by
    rw [List.zipIdx_map, List.filterMap_map, List.map_filterMap]
    refine List.filterMap_congr fun row hrow => ?_
    obtain ⟨x, i⟩ := row
    have hx := List.mem_zipIdx' hrow |>.2 ▸ List.getElem_mem _
    exact keyedRow_sort (hw x hx) (fun item heq => hi item (heq ▸ hx)) i
  rw [rowMap, rowMap, Dict.get?_ofEntries, Dict.get?_ofEntries, hrows, ← List.map_reverse,
    Dict.get?_map]

theorem mem_of_rowMap {items : List Json} (h : Dict.get? (rowMap items) key = some item) :
    .dict item ∈ items := by
  rw [rowMap, Dict.get?_ofEntries] at h
  have hm := List.mem_reverse.mp (Dict.mem_of_get? h)
  obtain ⟨⟨x, i⟩, hx, hk⟩ := List.mem_filterMap.mp hm
  have hx := List.mem_zipIdx' hx |>.2 ▸ List.getElem_mem _
  cases x <;> simp only [keyedRow, dict?, Option.map_some, Option.map_none, Option.some.injEq,
    Prod.mk.injEq, reduceCtorEq] at hk
  rwa [← hk.2]

omit [Unicode] in
theorem itemsOf_list (xs : List Json) : itemsOf (.list xs) = xs := by
  cases xs <;> rfl

omit [Unicode] in
theorem itemsOf_dict {v : Json} (h : .dict item ∈ itemsOf v) : ∃ xs, v = .list xs := by
  cases v with
  | list xs => exact ⟨xs, rfl⟩
  | null => simp [itemsOf, items?, truthy] at h
  | bool b => cases b <;> simp [itemsOf, items?, truthy] at h
  | int n | float n _ | str s | dict d =>
    simp only [itemsOf, items?] at h
    split at h <;> simp at h

theorem rowMap_itemsOf_sort {v : Json} (hv : v.wf)
    (hi : ∀ item, .dict item ∈ itemsOf v → Identified item) (key : String) :
    Dict.get? (rowMap (itemsOf v.sort)) key = (Dict.get? (rowMap (itemsOf v)) key).map sorted := by
  have hnone : ∀ w : Json, (∀ xs, w ≠ .list xs) → Dict.get? (rowMap (itemsOf w)) key = none := by
    intro w hw
    rw [Option.eq_none_iff_forall_ne_some]
    intro item h
    obtain ⟨xs, rfl⟩ := itemsOf_dict (mem_of_rowMap h)
    exact hw xs rfl
  cases v with
  | list xs =>
    rw [itemsOf_list] at hi ⊢
    rw [sort_list, itemsOf_list]
    exact rowMap_map_sort (wf_list.mp hv) hi key
  | dict d => rw [sort_dict, hnone _ (by simp), hnone _ (by simp), Option.map_none]
  | _ => rw [hnone _ (by simp [sort]), hnone _ (by simp), Option.map_none]

theorem liveRow_sort {items stored : List Json} (hw : ∀ x ∈ items, x.wf)
    (h : ∀ key, Dict.get? (rowMap stored) key = (Dict.get? (rowMap items) key).map sorted)
    (key : String) : liveRow stored key = (liveRow items key).map sort := by
  rw [liveRow, h, liveRow]
  cases hrow : Dict.get? (rowMap items) key with
  | none => rfl
  | some item =>
    have hd := (wf_dict.mp (hw _ (mem_of_rowMap hrow))).1
    by_cases hdel : isDeleted item <;>
      simp [Option.filter_some, isDeleted_sorted hd, hdel, sort_dict]

-- ---------------------------------------------------------------------------
-- Stored documents
-- ---------------------------------------------------------------------------

omit [Unicode] in
theorem itemsOf_wf {v : Json} (hv : v.wf) : ∀ x ∈ itemsOf v, x.wf := by
  intro x hx
  cases v with
  | list xs =>
    rw [itemsOf_list] at hx
    exact wf_list.mp hv x hx
  | null => simp [itemsOf, items?, truthy] at hx
  | bool b => cases b <;> simp [itemsOf, items?, truthy] at hx
  | int n | float n _ =>
    simp only [itemsOf, items?] at hx
    split at hx <;> simp at hx
  | str s | dict d =>
    simp only [itemsOf, items?] at hx
    split at hx
    · simp at hx
    · obtain ⟨c, -, rfl⟩ := List.mem_map.mp hx
      rfl

omit [Unicode] in
theorem asDict_wf {v : Json} (hv : v.wf) : (dict (asDict v)).wf := by
  cases v with
  | dict d => exact hv
  | _ => rfl

omit [Unicode] in
theorem asDict_sort (v : Json) : asDict v.sort = sorted (asDict v) := by
  cases v with
  | dict d => rw [sort_dict]; rfl
  | list xs => rw [sort_list]; rfl
  | _ => rfl

omit [Unicode] in
theorem getD_wf {d : Entries} (hd : (dict d).wf) (hv : v.wf) (key : String) :
    (getD d key v).wf := by
  simp only [Json.getD]
  cases h : Dict.get? d key with
  | none => exact hv
  | some w => exact (wf_dict.mp hd).2 key w (Dict.mem_of_get? h)

omit [Unicode] in
theorem deviceItems_wf {v : Json} (hv : v.wf) (field : String) : ∀ x ∈ deviceItems field v, x.wf :=
  itemsOf_wf (getD_wf (asDict_wf hv) rfl field)

omit [Unicode] in
theorem eventItems_wf {v : Json} (hv : v.wf) : ∀ x ∈ eventItems v, x.wf := by
  cases v with
  | list xs => exact wf_list.mp hv
  | _ => simp [eventItems, list?]

theorem liveRow_devices {v : Json} (hv : v.wf) {field : String}
    (hi : ∀ item, .dict item ∈ deviceItems field v → Identified item) (key : String) :
    liveRow (deviceItems field v.sort) key = (liveRow (deviceItems field v) key).map sort := by
  refine liveRow_sort (deviceItems_wf hv field) (fun k => ?_) key
  have hfield : deviceItems field v.sort =
      itemsOf (getD (asDict v) field (.list [])).sort := by
    rw [deviceItems, asDict_sort, ← getD_sorted (wf_dict.mp (asDict_wf hv)).1]
    rfl
  rw [hfield]
  exact rowMap_itemsOf_sort (getD_wf (asDict_wf hv) rfl field) hi k

theorem liveRow_events {v : Json} (hv : v.wf)
    (hi : ∀ item, .dict item ∈ eventItems v → Identified item) (key : String) :
    liveRow (eventItems v.sort) key = (liveRow (eventItems v) key).map sort := by
  refine liveRow_sort (eventItems_wf hv) (fun k => ?_) key
  cases v with
  | list xs =>
    rw [sort_list]
    exact rowMap_map_sort (wf_list.mp hv) hi k
  | dict d => rw [sort_dict]; rfl
  | _ => rfl

omit [Unicode] in
theorem length?_sort (v : Json) : length? v.sort = length? v := by
  cases v with
  | list xs => cases xs <;> simp [sort_list, length?, items?, truthy]
  | dict d =>
    have hlen : (sorted d).length = d.length := by simpa using (sorted_perm d).length_eq
    simp only [length?, items?, truthy_sort]
    split
    · rfl
    · simp [sort_dict, hlen]
  | _ => rfl

omit [Unicode] in
theorem deviceMeta?_sort {v : Json} (hv : v.wf) :
    deviceMeta? (asDict v.sort) = (deviceMeta? (asDict v)).map sort := by
  have hd := (wf_dict.mp (asDict_wf hv)).1
  have honline : length? (getD (sorted (asDict v)) "online" (.list [])) =
      length? (getD (asDict v) "online" (.list [])) := by
    rw [← length?_sort (getD (asDict v) "online" (.list [])), ← getD_sorted hd]
    rfl
  rw [asDict_sort, deviceMeta?, deviceMeta?, honline]
  cases length? (getD (asDict v) "online" (.list [])) with
  | none => rfl
  | some count =>
    have hcount : getD (sorted (asDict v)) "onlineDeviceCount" (.int count) =
        (getD (asDict v) "onlineDeviceCount" (.int count)).sort := getD_sorted hd _ (.int count)
    have htotal : getD (sorted (asDict v)) "total" (.int 0) =
        (getD (asDict v) "total" (.int 0)).sort := getD_sorted hd _ (.int 0)
    have horder : "onlineDeviceCount" ≤ "total" := by decide
    have hsorted : ∀ x y, sorted [("onlineDeviceCount", x), ("total", y)] =
        [("onlineDeviceCount", x.sort), ("total", y.sort)] := by simp [sorted, horder]
    simp only [Option.bind_eq_bind, Option.bind_some, Option.map_some, sort_dict, hcount, htotal,
      hsorted]

omit [Unicode] in
theorem deviceMeta?_wf {d : Entries} (hd : (dict d).wf) (h : deviceMeta? d = some v) : v.wf := by
  rw [deviceMeta?] at h
  cases hl : length? (getD d "online" (.list [])) with
  | none => simp [hl] at h
  | some count =>
    simp only [hl, Option.bind_eq_bind, Option.bind_some, Option.some.injEq] at h
    subst h
    rw [wf_dict]
    refine ⟨by simp [Dict.keys], fun k w hw => ?_⟩
    simp only [List.mem_cons, Prod.mk.injEq, List.not_mem_nil, or_false] at hw
    rcases hw with ⟨-, rfl⟩ | ⟨-, rfl⟩
    · exact getD_wf hd rfl _
    · exact getD_wf hd rfl _

end LabProbe.Storage
