import LabProbe.Lib.Log
import LabProbe.Storage.View
import LabProbe.Storage.Changes

/-!
# Replaying the change records

The records of one save turn the client's table of the old document into
that of the new one, up to `Same`: the save is a patch of the table. A
client therefore follows the log from any revision on, as long as the rows
above it are still there.
-/

namespace LabProbe.Storage

open Py Py.Json Keyed Logs Runs

section
variable [Unicode]

-- ---------------------------------------------------------------------------
-- The records of a list
-- ---------------------------------------------------------------------------

section
variable {unchanged : Entries → Entries → Bool} {payload : Entries → Json} {entity : Entity}
  {old new stored : List Json} {key : String}

omit [Unicode] in
def itemRecord (payload : Entries → Json) (entity : Entity) (key : String) (item : Entries) :
    Change Row Json :=
  if isDeleted item then .remove (entity, key) else .put (entity, key) (payload item).sort

theorem records_diffRows :
    (diffRows unchanged payload entity old new).filterMap ChangeRow.record =
      ((rowMap new).filter fun e => !holds unchanged (rowMap old) e.1 e.2).map
          (fun e => itemRecord payload entity e.1 e.2) ++
        ((rowMap old).filter fun e => !(Dict.keys (rowMap new)).contains e.1).map
          fun e => .remove (entity, e.1) := by
  have hitem : ChangeRow.record ∘ (fun e : String × Entries => itemChange payload entity e.1 e.2) =
      fun e => some (itemRecord payload entity e.1 e.2) := by
    funext e
    simp only [Function.comp_apply, itemChange, itemRecord]
    split <;> rfl
  have hgone : ∀ (d : List (String × Entries)) (p : String → Bool),
      (((Dict.keys d).filter p).map fun key => ⟨entity, .delete, key, .null⟩).filterMap
          ChangeRow.record =
        (d.filter fun e => p e.1).map fun e => Change.remove (entity, e.1) := by
    intro d p
    rw [Dict.keys, List.filter_map, List.map_map, List.filterMap_map]
    exact congrFun (List.filterMap_eq_map ..) _
  rw [diffRows, List.filterMap_append, List.filterMap_map, hitem, hgone]
  congr 1
  exact congrFun (List.filterMap_eq_map ..) _

theorem lastAt_diffRows :
    lastAt ((diffRows unchanged payload entity old new).filterMap ChangeRow.record) (entity, key) =
      match Dict.get? (rowMap new) key with
      | some item =>
        if holds unchanged (rowMap old) key item then none
        else if isDeleted item then some none else some (some (payload item).sort)
      | none => if (Dict.get? (rowMap old) key).isSome then some none else none := by
  have hg : Function.Injective (Prod.mk entity : String → Row) := fun _ _ h => (Prod.mk.inj h).2
  have hitem : ∀ k item, (itemRecord payload entity k item).key = (entity, k) := by
    intro k item
    rw [itemRecord]
    split <;> rfl
  have hnew : (Dict.keys (rowMap new)).Nodup := Dict.nodup_keys_ofEntries _
  have hold : (Dict.keys (rowMap old)).Nodup := Dict.nodup_keys_ofEntries _
  rw [records_diffRows, lastAt_append,
    lastAt_entries (Dict.nodup_keys_filter _ hnew) hg hitem,
    lastAt_entries (f := fun k _ => Change.remove (entity, k)) (Dict.nodup_keys_filter _ hold) hg
      (fun _ _ => rfl),
    Dict.get?_filter _ hnew, Dict.get?_filter _ hold]
  cases hn : Dict.get? (rowMap new) key with
  | none =>
    have hk : key ∉ Dict.keys (rowMap new) := Dict.get?_eq_none.mp hn
    cases Dict.get? (rowMap old) key <;> simp [Option.filter_some, hk, Change.effect]
  | some item =>
    have hk : key ∈ Dict.keys (rowMap new) := Dict.get?_isSome.mp (by rw [hn]; rfl)
    have hremoved : (Dict.get? (rowMap old) key).filter
        (fun _ => !(Dict.keys (rowMap new)).contains key) = none := by
      cases Dict.get? (rowMap old) key <;> simp [Option.filter_some, hk]
    rw [hremoved]
    by_cases hh : holds unchanged (rowMap old) key item
    · simp [Option.filter_some, hh]
    · by_cases hdel : isDeleted item <;>
        simp [Option.filter_some, hh, hdel, itemRecord, Change.effect]

theorem lastAt_diffRows_other {other : Entity} (h : other ≠ entity) :
    lastAt ((diffRows unchanged payload entity old new).filterMap ChangeRow.record) (other, key) =
      none := by
  refine lastAt_eq_none fun c hc heq => h ?_
  suffices hkey : c.key.1 = entity by rw [← hkey, heq]
  rw [records_diffRows] at hc
  rcases List.mem_append.mp hc with hc | hc
  · obtain ⟨e, -, rfl⟩ := List.mem_map.mp hc
    rw [itemRecord]
    split <;> rfl
  · obtain ⟨e, -, rfl⟩ := List.mem_map.mp hc
    rfl

/-- The records of a list lead from its old rows to the stored new ones,
when what the diff passes over and what it records are the same to a client. -/
theorem diffRows_patch {R : Json → Json → Prop}
    (hunchanged : ∀ a b : Entries, (dict a).wf → (dict b).wf → unchanged a b →
      R (dict a) (dict b).sort ∧ isDeleted a = isDeleted b)
    (hpayload : ∀ item : Entries, (dict item).wf → R (payload item).sort (dict item).sort)
    (hold : ∀ x ∈ old, x.wf) (hnew : ∀ x ∈ new, x.wf)
    (hstored : liveRow stored key = (liveRow new key).map sort) :
    Option.Rel R ((lastAt ((diffRows unchanged payload entity old new).filterMap ChangeRow.record)
      (entity, key)).getD (liveRow old key)) (liveRow stored key) := by
  rw [hstored, lastAt_diffRows, liveRow, liveRow]
  cases hn : Dict.get? (rowMap new) key with
  | none => cases Dict.get? (rowMap old) key <;> exact .none
  | some item =>
    have hitem : (dict item).wf := hnew _ (mem_of_rowMap hn)
    by_cases hh : holds unchanged (rowMap old) key item
    · -- the diff passes over the row
      cases ho : Dict.get? (rowMap old) key with
      | none => simp [holds, ho] at hh
      | some previous =>
        have hsame : unchanged previous item := by simpa [holds, ho] using hh
        have hprevious : (dict previous).wf := hold _ (mem_of_rowMap ho)
        obtain ⟨hr, hdel⟩ := hunchanged previous item hprevious hitem hsame
        by_cases hd : isDeleted item
        · simp [hh, Option.filter_some, hdel, hd]
        · simpa [hh, Option.filter_some, hdel, hd] using hr
    · by_cases hd : isDeleted item
      · simp [hh, hd, Option.filter_some]
      · simpa [hh, hd, Option.filter_some] using hpayload item hitem

end

-- ---------------------------------------------------------------------------
-- Devices and events
-- ---------------------------------------------------------------------------

theorem stableDeviceKey_deleted : stableDeviceKey "deleted" = true := by
  rw [stableDeviceKey, Unicode.lower_ascii "deleted" (by decide)]
  decide

omit [Unicode] in
/-- A field two objects hold equal values of is true or false in both. -/
theorem truthy_get {a b : Entries} (h : Option.Rel (fun v w => v.eq w = true)
    (Dict.get? a key) (Dict.get? b key)) : (get a key).truthy = (get b key).truthy := by
  simp only [Json.get]
  generalize Dict.get? a key = o, Dict.get? b key = o' at h
  cases h with
  | none => rfl
  | some h => exact truthy_eq h

theorem isDeleted_of_stable {a b : Entries} (ha : (dict a).wf) (hb : (dict b).wf)
    (h : (stableDevice (dict a)).eq (stableDevice (dict b))) : isDeleted a = isDeleted b := by
  have hn := (wf_dict.mp ha).1
  have hn' := (wf_dict.mp hb).1
  rw [stableDevice, stableDevice, eq_dict_rel (Dict.nodup_keys_filter _ hn)] at h
  have hk := h "deleted"
  have hall : ∀ o : Option Json, o.filter (fun _ => true) = o := fun o => by cases o <;> rfl
  rw [Dict.get?_filter _ hn, Dict.get?_filter _ hn'] at hk
  simp only [stableDeviceKey_deleted, hall] at hk
  exact truthy_get hk

theorem device_patch {entity : Entity} {old new stored : List Json} {key : String}
    (hold : ∀ x ∈ old, x.wf) (hnew : ∀ x ∈ new, x.wf)
    (hstored : liveRow stored key = (liveRow new key).map sort) :
    Option.Rel (fun a b => (stableCard a).eq (stableCard b) = true)
      ((lastAt ((diffRows (fun a b => (stableDevice (.dict a)).eq (stableDevice (.dict b)))
        (fun item => revisionDevicePayload (.dict item)) entity old new).filterMap
          ChangeRow.record) (entity, key)).getD (liveRow old key)) (liveRow stored key) := by
  refine diffRows_patch (fun a b ha hb h => ?_) (fun item hitem => ?_) hold hnew hstored
  · have hsort : (stableCard (dict b)).eq (stableCard (dict b).sort) :=
      stableCard_eq hb (wf_sort hb) (eq_symm (wf_sort hb) hb (sort_eq hb))
    exact ⟨eq_trans (stableCard_of_stable ha hb h) hsort, isDeleted_of_stable ha hb h⟩
  · have hpay := revisionDevicePayload_wf hitem
    have h := stableCard_eq (wf_sort hpay) hpay (sort_eq hpay)
    rw [stableCard_payload] at h
    exact eq_trans h (stableCard_eq hitem (wf_sort hitem)
      (eq_symm (wf_sort hitem) hitem (sort_eq hitem)))

theorem event_patch {old new : List Json} {key : String}
    (hold : ∀ x ∈ old, x.wf) (hnew : ∀ x ∈ new, x.wf)
    (hstored : liveRow stored key = (liveRow new key).map sort) :
    Option.Rel (fun a b => a.eq b = true)
      ((lastAt ((listDiff .event old new).filterMap ChangeRow.record) (.event, key)).getD
        (liveRow old key)) (liveRow stored key) := by
  refine diffRows_patch (fun a b ha hb h => ?_) (fun item hitem => ?_) hold hnew hstored
  · have hsort : (dict b).eq (dict b).sort := eq_symm (wf_sort hb) hb (sort_eq hb)
    exact ⟨eq_trans h hsort, truthy_get ((eq_dict_rel (wf_dict.mp ha).1).mp h "deleted")⟩
  · exact eq_refl (wf_sort hitem)

-- ---------------------------------------------------------------------------
-- The records of a document
-- ---------------------------------------------------------------------------

omit [Unicode] in
/-- The rows of a saved document that have a key of their own. -/
def keyedItems (key : String) (value : Json) : List Json :=
  if key = "devices.json" then deviceItems "watched" value ++ deviceItems "online" value
  else if key = "events.json" then eventItems value
  else []

theorem listDiffStable_eq (h : listDiffStable entity old new = some rows) :
    rows = diffRows (fun a b => (stableDevice (.dict a)).eq (stableDevice (.dict b)))
      (fun item => revisionDevicePayload (.dict item)) entity (itemsOf old) (itemsOf new) := by
  rw [listDiffStable] at h
  rw [itemsOf, itemsOf]
  cases ho : items? old with
  | none => simp [ho] at h
  | some xs =>
    cases hn : items? new with
    | none => simp [ho, hn] at h
    | some ys => simpa [ho, hn] using h.symm

theorem deviceChanges_eq {old new : Entries} (h : deviceChanges old new = some rows) :
    ∃ oldMeta newMeta watched online, deviceMeta? old = some oldMeta ∧
      deviceMeta? new = some newMeta ∧
      listDiffStable .device (getD old "watched" (.list [])) (getD new "watched" (.list [])) =
        some watched ∧
      listDiffStable .onlineDevice (getD old "online" (.list [])) (getD new "online" (.list [])) =
        some online ∧
      rows = watched ++ online ++
        if oldMeta.eq newMeta then [] else [⟨.deviceMeta, .replace, "devices", newMeta⟩] := by
  simp only [deviceChanges, Option.bind_eq_bind, Option.bind_eq_some_iff, Option.some.injEq] at h
  obtain ⟨oldMeta, ho, newMeta, hn, watched, hw, online, hl, rfl⟩ := h
  exact ⟨oldMeta, newMeta, watched, online, ho, hn, hw, hl, rfl⟩

omit [Unicode] in
theorem replace_patch {R : Json → Json → Prop} {same : Prop} [Decidable same] {entity : Entity}
    {key : String} {old new payload : Json} (hsame : same → R old new)
    (hpayload : R payload.sort new) :
    Option.Rel R ((lastAt (List.filterMap ChangeRow.record
      (if same then [] else [⟨entity, .replace, key, payload⟩])) (entity, key)).getD (some old))
      (some new) := by
  split
  · rename_i h
    exact .some (hsame h)
  · simpa [ChangeRow.record, record, lastAt, Change.effect] using hpayload

omit [Unicode] in
theorem rel_refl {r : Json → Json → Prop} {o : Option Json} (h : ∀ v, o = some v → r v v) :
    Option.Rel r o o := by
  cases o with
  | none => exact .none
  | some v => exact .some (h v rfl)

omit [Unicode] in
theorem lastAt_replace_other {same : Prop} [Decidable same] {row : Row} (h : row ≠ (entity, key)) :
    lastAt (List.filterMap ChangeRow.record
      (if same then [] else [⟨entity, .replace, key, payload⟩])) row = none := by
  refine lastAt_eq_none fun c hc heq => h ?_
  split at hc
  · simp at hc
  · simp only [List.filterMap_cons, List.filterMap_nil, ChangeRow.record, record,
      List.mem_singleton] at hc
    rw [← heq, hc]
    rfl

theorem devices_patch {document : Option Json} {new : Json} {row : Row}
    (hold : (document.getD .null).wf) (hnew : new.wf)
    (hi : ∀ item, .dict item ∈ keyedItems "devices.json" new → Identified item)
    (h : deviceChanges (asDict (document.getD .null)) (asDict new) = some rows)
    (hrow : owner row = some "devices.json") :
    Option.Rel (Same row) ((lastAt (rows.filterMap ChangeRow.record) row).getD (rowOf document row))
      (rowOf (some new.sort) row) := by
  obtain ⟨oldMeta, newMeta, watched, online, ho, hn, hw, hl, rfl⟩ := deviceChanges_eq h
  have hwatched : ∀ item, .dict item ∈ deviceItems "watched" new → Identified item :=
    fun item hm => hi item (by simp [keyedItems, hm])
  have honline : ∀ item, .dict item ∈ deviceItems "online" new → Identified item :=
    fun item hm => hi item (by simp [keyedItems, hm])
  rw [List.filterMap_append, List.filterMap_append, lastAt_append, lastAt_append,
    listDiffStable_eq hw, listDiffStable_eq hl]
  obtain ⟨entity, key⟩ := row
  cases entity with
  | device =>
    rw [lastAt_replace_other (by simp), lastAt_diffRows_other (show Entity.device ≠ .onlineDevice by simp),
      Option.none_or, Option.none_or]
    exact device_patch (deviceItems_wf hold _) (deviceItems_wf hnew _)
      (liveRow_devices hnew hwatched key)
  | onlineDevice =>
    rw [lastAt_replace_other (by simp), lastAt_diffRows_other (show Entity.onlineDevice ≠ .device by simp),
      Option.none_or, Option.or_none]
    exact device_patch (deviceItems_wf hold _) (deviceItems_wf hnew _)
      (liveRow_devices hnew honline key)
  | deviceMeta =>
    rw [lastAt_diffRows_other (by simp), lastAt_diffRows_other (by simp), Option.or_none,
      Option.or_none]
    by_cases hk : key = "devices"
    · subst hk
      have hwf := deviceMeta?_wf (asDict_wf hnew) hn
      have hsort : newMeta.eq newMeta.sort := eq_symm (wf_sort hwf) hwf (sort_eq hwf)
      simp only [rowOf, if_true, ho, Option.getD_some, deviceMeta?_sort hnew, hn, Option.map_some]
      exact replace_patch (fun heq => eq_trans heq hsort) (eq_refl (wf_sort hwf))
    · rw [lastAt_replace_other (by simp [hk])]
      simp only [rowOf, if_neg hk]
      exact .none
  | document =>
    have hwhole : isWhole key = false := by
      cases hrow
      decide
    rw [lastAt_replace_other (by simp), lastAt_diffRows_other (by simp),
      lastAt_diffRows_other (by simp)]
    simp only [rowOf, hwhole]
    exact .none
  | event | status | system => simp [owner] at hrow

theorem events_patch {document : Option Json} {new : Json} {row : Row}
    (hold : (document.getD .null).wf) (hnew : new.wf)
    (hi : ∀ item, .dict item ∈ keyedItems "events.json" new → Identified item)
    (hrow : owner row = some "events.json") :
    Option.Rel (Same row)
      ((lastAt ((listDiff .event (eventItems (document.getD .null)) (eventItems new)).filterMap
        ChangeRow.record) row).getD (rowOf document row)) (rowOf (some new.sort) row) := by
  obtain ⟨entity, key⟩ := row
  cases entity with
  | event => exact event_patch (eventItems_wf hold) (eventItems_wf hnew) (liveRow_events hnew hi key)
  | document =>
    have hwhole : isWhole key = false := by
      cases hrow
      decide
    rw [listDiff, lastAt_diffRows_other (by simp)]
    simp only [rowOf, hwhole]
    exact .none
  | _ => simp [owner] at hrow

theorem status_patch {document : Option Json} {new : Json} {row : Row}
    (hnew : new.wf) (hrow : owner row = some "state.json") :
    Option.Rel (Same row)
      ((lastAt ((statusChanges (document.getD .null) new).filterMap ChangeRow.record) row).getD
        (rowOf document row)) (rowOf (some new.sort) row) := by
  obtain ⟨entity, key⟩ := row
  cases entity with
  | status =>
    by_cases hk : key = "status"
    · subst hk
      have hsort : (stableStatus true new).eq (stableStatus true new.sort) :=
        stableStatus_eq hnew (wf_sort hnew) (eq_symm (wf_sort hnew) hnew (sort_eq hnew))
      have hstable : (stableStatus true new).wf := stableStatus_wf hnew
      have hrecorded : (stableStatus true (stableStatus true new).sort).eq
          (stableStatus true (stableStatus true new)) :=
        stableStatus_eq (wf_sort hstable) hstable (sort_eq hstable)
      rw [stableStatus_twice] at hrecorded
      simp only [rowOf, if_true, Option.getD_some]
      exact replace_patch (fun heq => eq_trans heq hsort) (eq_trans hrecorded hsort)
    · rw [statusChanges, lastAt_replace_other (by simp [hk])]
      simp only [rowOf, if_neg hk]
      exact .none
  | document =>
    have hwhole : isWhole key = false := by
      cases hrow
      decide
    rw [statusChanges, lastAt_replace_other (by simp)]
    simp only [rowOf, hwhole]
    exact .none
  | _ => simp [owner] at hrow

theorem whole_patch {document : Option Json} {key : String} {new : Json} {row : Row}
    (hnew : new.wf) (hwhole : isWhole key = true) (hrow : owner row = some key) :
    Option.Rel (Same row)
      ((lastAt ([⟨.document, .replace, key, new⟩].filterMap ChangeRow.record) row).getD
        (rowOf document row)) (rowOf (some new.sort) row) := by
  obtain ⟨entity, key'⟩ := row
  cases entity with
  | document =>
    cases hrow
    simpa [ChangeRow.record, record, lastAt, Change.effect, rowOf, hwhole, Same]
      using eq_refl (wf_sort hnew)
  | system => cases hrow
  | _ =>
    cases hrow
    exact absurd hwhole (by decide)

/-- The records of any saved document lead from the rows of its old content
to those of the stored new one. -/
theorem document_patch {document : Option Json} {key : String} {new : Json} {row : Row}
    (hold : (document.getD .null).wf) (hnew : new.wf)
    (hi : ∀ item, .dict item ∈ keyedItems key new → Identified item)
    (h : changesForDocument key (document.getD .null) new = some rows) (hrow : owner row = some key) :
    Option.Rel (Same row) ((lastAt (rows.filterMap ChangeRow.record) row).getD (rowOf document row))
      (rowOf (some new.sort) row) := by
  rw [changesForDocument] at h
  split at h
  · -- nothing of a runtime document is recorded, and no row is read from it
    rename_i hruntime
    cases h
    obtain ⟨entity, key'⟩ := row
    cases entity with
    | document =>
      cases hrow
      simp only [rowOf, isWhole, hruntime]
      exact .none
    | system => cases hrow
    | _ =>
      cases hrow
      exact absurd hruntime (by decide)
  · rename_i hruntime
    split at h
    · rename_i hkey
      subst hkey
      exact devices_patch hold hnew hi h hrow
    · rename_i hdevices
      split at h
      · rename_i hkey
        subst hkey
        cases h
        exact events_patch hold hnew hi hrow
      · rename_i hevents
        split at h
        · rename_i hkey
          subst hkey
          cases h
          exact status_patch hnew hrow
        · rename_i hstate
          cases h
          refine whole_patch hnew ?_ hrow
          rw [Bool.not_eq_true] at hruntime
          rw [isWhole, hruntime]
          simp [hdevices, hevents, hstate]

omit [Unicode] in
theorem replace_owner {same : Prop} [Decidable same] {key : String} {r : ChangeRow}
    (hr : r ∈ if same then [] else [⟨entity, .replace, key, payload⟩]) :
    (r.entity, r.key) = (entity, key) := by
  split at hr
  · simp at hr
  · rw [List.mem_singleton.mp hr]

theorem diffRows_owner (hr : r ∈ diffRows unchanged payload entity old new) : r.entity = entity := by
  rcases List.mem_append.mp hr with hr | hr
  · obtain ⟨e, -, rfl⟩ := List.mem_map.mp hr
    rw [itemChange]
    split <;> rfl
  · obtain ⟨k, -, rfl⟩ := List.mem_map.mp hr
    rfl

theorem changes_owner {old new : Json} (h : changesForDocument key old new = some rows)
    (hr : r ∈ rows) : owner (r.entity, r.key) = some key := by
  rw [changesForDocument] at h
  split at h
  · cases h
    simp at hr
  · split at h
    · rename_i hkey
      obtain ⟨oldMeta, newMeta, watched, online, -, -, hw, hl, rfl⟩ := deviceChanges_eq h
      rw [listDiffStable_eq hw, listDiffStable_eq hl] at hr
      rcases List.mem_append.mp hr with hr | hr
      · rcases List.mem_append.mp hr with hr | hr
        · rw [diffRows_owner hr, hkey]
          rfl
        · rw [diffRows_owner hr, hkey]
          rfl
      · rw [replace_owner hr, hkey]
        rfl
    · split at h
      · rename_i hkey
        cases h
        rw [diffRows_owner hr, hkey]
        rfl
      · split at h
        · rename_i hkey
          cases h
          rw [replace_owner hr, hkey]
          rfl
        · cases h
          rw [List.mem_singleton.mp hr]
          rfl

-- ---------------------------------------------------------------------------
-- The records of an event
-- ---------------------------------------------------------------------------

omit [Unicode] in
/-- The stored documents are values, of either key order. -/
def Stored (s : Store) : Prop := ∀ key v, Dict.get? s.documents key = some v → v.wf

omit [Unicode] in
theorem Stored.getD {s : Store} (hs : Stored s) (key : String) :
    ((Dict.get? s.documents key).getD .null).wf := by
  cases h : Dict.get? s.documents key with
  | none => rfl
  | some v => exact hs key v h

theorem liveRow_wf {items : List Json} (hw : ∀ x ∈ items, x.wf) (h : liveRow items key = some v) :
    v.wf := by
  obtain ⟨item, hitem, rfl⟩ := Option.map_eq_some_iff.mp h
  exact hw _ (mem_of_rowMap (Option.filter_eq_some_iff.mp hitem).1)

theorem view_wf {s : Store} (hs : Stored s) {row : Row} (h : view s.documents row = some v) :
    v.wf := by
  obtain ⟨entity, key⟩ := row
  cases entity with
  | device | onlineDevice => exact liveRow_wf (deviceItems_wf (hs.getD _) _) h
  | event => exact liveRow_wf (eventItems_wf (hs.getD _)) h
  | deviceMeta =>
    simp only [view, owner, rowOf, Option.bind_some] at h
    split at h
    · exact deviceMeta?_wf (asDict_wf (hs.getD _)) h
    · simp at h
  | status =>
    simp only [view, owner, rowOf, Option.bind_some] at h
    split at h
    · cases h
      exact hs.getD _
    · simp at h
  | document =>
    simp only [view, owner, rowOf, Option.bind_some] at h
    split at h
    · exact hs key v h
    · simp at h
  | system => simp [view, owner] at h

theorem agree_refl {s : Store} (hs : Stored s) : Agree Same (view s.documents) (view s.documents) :=
  fun row => rel_refl fun _ h => Same.refl row (view_wf hs h)

/-- The names of the rows of a saved value have the same text in both orders. -/
def Event.Identified : Event → Prop
  | .save key value _ => ∀ item, .dict item ∈ keyedItems key value.val → Storage.Identified item
  | .restart _ => True

theorem save_patch {s : Store} (hs : Stored s) {value : Value}
    (hi : ∀ item, .dict item ∈ keyedItems key value.val → Identified item)
    (h : changesForDocument key (s.document key) value.val = some rows) :
    Patch Same (rows.filterMap ChangeRow.record) (view s.documents)
      (view (Dict.set s.documents key value.val.sort)) := by
  intro row
  by_cases hrow : owner row = some key
  · simp only [view, hrow, Option.bind_some, Dict.get?_set, if_true]
    exact document_patch (hs.getD key) value.property hi h hrow
  · have hother : view (Dict.set s.documents key value.val.sort) row = view s.documents row := by
      simp only [view]
      cases ho : owner row with
      | none => rfl
      | some key' =>
        have hne : key ≠ key' := fun heq => hrow (heq ▸ ho)
        simp [Dict.get?_set, hne]
    have hnone : lastAt (rows.filterMap ChangeRow.record) row = none := by
      refine lastAt_eq_none fun c hc heq => hrow ?_
      obtain ⟨r, hr, hrec⟩ := List.mem_filterMap.mp hc
      rw [← heq, record_key hrec, changes_owner h hr]
    rw [hnone, hother]
    exact agree_refl hs row

section
variable {keep : Retention}

omit [Unicode] in
theorem prune_documents (s : Store) (clock : Clock) (force : Bool) :
    (prune keep s clock force).documents = s.documents := by
  rw [prune]
  split <;> rfl

/-- An event leaves the documents and records nothing a client acts on, or
saves one document with its change rows. -/
theorem apply_documents (s : Store) (e : Event) :
    ((e.apply keep s).documents = s.documents ∧ (e.rows s).filterMap Revision.record = []) ∨
      ∃ key value clock rows, e = .save key value clock ∧
        changesForDocument key (s.document key) value.val = some rows ∧
        (e.apply keep s).documents = Dict.set s.documents key value.val.sort ∧
        (e.rows s).filterMap Revision.record = rows.filterMap ChangeRow.record := by
  cases e with
  | save key value clock =>
    simp only [Event.apply, Event.rows, Storage.save, saveRows]
    by_cases htext : Dict.get? s.documents key = some value.val.sort
    · exact .inl (by simp [htext])
    · simp only [if_neg htext]
      cases hc : changesForDocument key (s.document key) value.val with
      | none => exact .inl (by simp)
      | some rows =>
        refine .inr ⟨key, value, clock, rows, rfl, hc, ?_, ?_⟩
        · simp [prune_documents]
        · simp [records_number]
  | restart clock =>
    refine .inl ⟨by simp [Event.apply, openStore, prune_documents, insertRows], ?_⟩
    simp only [Event.rows, openRows]
    split
    · rw [records_number]
      rfl
    · rfl

theorem Stored.apply {s : Store} (hs : Stored s) (e : Event) : Stored (e.apply keep s) := by
  rcases apply_documents s e with ⟨hd, -⟩ | ⟨key, value, -, -, -, -, hd, -⟩
  · rwa [Stored, hd]
  · intro key' v h
    rw [hd, Dict.get?_set] at h
    split at h
    · cases h
      exact wf_sort value.property
    · exact hs key' v h

theorem event_records_patch {s : Store} {e : Event} (hs : Stored s) (hi : e.Identified) :
    Patch Same ((e.rows s).filterMap Revision.record) (view s.documents)
      (view (e.apply keep s).documents) := by
  rcases apply_documents s e with ⟨hd, hr⟩ | ⟨key, value, clock, rows, rfl, hc, hd, hr⟩
  · rw [hd, hr]
    exact agree_refl hs
  · rw [hd, hr]
    exact save_patch hs hi hc

-- ---------------------------------------------------------------------------
-- Runs
-- ---------------------------------------------------------------------------

/-- The rows a run commits carry a client's table along. -/
theorem replay_run {h : History} (hs : Stored h.store) {es : List Event}
    (hi : ∀ e ∈ es, e.Identified) :
    ∃ rows, (run (History.step keep) h es).committed = h.committed ++ rows ∧
      (∀ row ∈ rows, (h.store.sequence : Int) < row.number) ∧
      ∀ table, Agree Same table (view h.store.documents) →
        Agree Same (replay table (rows.filterMap Revision.record))
          (view (run (History.step keep) h es).store.documents) := by
  induction es generalizing h with
  | nil => exact ⟨[], by simp, by simp, fun _ ha => ha⟩
  | cons e es ih =>
    obtain ⟨rows, hcommitted, hnumber, hreplay⟩ :=
      ih (h := h.step keep e) (hs.apply e) fun e' he => hi e' (List.mem_cons_of_mem _ he)
    have hseq : (h.step keep e).store.sequence = h.store.sequence + (e.rows h.store).length :=
      (apply_spec keep h.store e).1
    refine ⟨e.rows h.store ++ rows, ?_, fun row hrow => ?_, fun table ha => ?_⟩
    · rw [run_cons, hcommitted, ← List.append_assoc]
      rfl
    · rcases List.mem_append.mp hrow with hrow | hrow
      · exact (rows_mem hrow).1
      · have := hnumber row hrow
        omega
    · rw [List.filterMap_append, replay_append]
      exact hreplay _ ((event_records_patch hs (hi e List.mem_cons_self)).agree Same.trans ha)

omit [Unicode] in
theorem stored_created (files : List (String × Value)) : Stored (History.created files).store := by
  intro key v h
  rw [History.created, migrate, Dict.get?_ofEntries, ← List.map_reverse,
    Dict.get?_map (fun value : Value => value.val.sort)] at h
  obtain ⟨value, -, rfl⟩ := Option.map_eq_some_iff.mp h
  exact wf_sort value.property

/-- The rows above a number, when the log splits around the event it falls in. -/
theorem after_split {h h' : History} {rows : List Revision} (hn' : Numbered h')
    (hlog : h'.committed = h.committed ++ rows) {e : Event} {before : History}
    (hb : Numbered before) (hstep : h = before.step keep e) {r : Int}
    (hlow : before.store.sequence ≤ r) (hhigh : r ≤ h.store.sequence)
    (hrows : ∀ row ∈ rows, (h.store.sequence : Int) < row.number)
    (hkept : ∀ row ∈ h'.committed, r < row.number → row ∈ h'.store.revisions) :
    after Revision.number r h'.store.revisions =
      after Revision.number r (e.rows before.store) ++ rows := by
  have htable : after Revision.number r h'.store.revisions =
      after Revision.number r h'.committed :=
    filter_eq_of_sublist hn'.kept hn'.ordered.nodup (by simpa using hkept)
  have hold : after Revision.number r before.committed = [] := by
    rw [after, List.filter_eq_nil_iff]
    intro row hrow
    have := hb.bounded row hrow
    simp only [decide_eq_true_eq]
    omega
  have hnew : after Revision.number r rows = rows := by
    rw [after, List.filter_eq_self]
    intro row hrow
    have := hrows row hrow
    simp only [decide_eq_true_eq]
    omega
  rw [htable, hlog, hstep, History.step, after_append, after_append, hold, hnew, List.nil_append]

/-- A client that holds the table of the documents at a revision `r` and
replays every later record the table still has, none being pruned, holds
the documents as they are now. -/
theorem replay_agrees (keep : Retention) (files : List (String × Value)) (es later : List Event)
    (e : Event) (r : Int)
    (hi : ∀ e' ∈ e :: later, e'.Identified)
    (hlow : (run (History.step keep) (.created files) es).store.sequence ≤ r)
    (hhigh : r ≤ (run (History.step keep) (.created files) (es ++ [e])).store.sequence)
    (hkept : ∀ row ∈ (run (History.step keep) (.created files) (es ++ e :: later)).committed,
      r < row.number →
        row ∈ (run (History.step keep) (.created files) (es ++ e :: later)).store.revisions) :
    Agree Same
      (replay (view (run (History.step keep) (.created files) (es ++ [e])).store.documents)
        ((after Revision.number r
          (run (History.step keep) (.created files) (es ++ e :: later)).store.revisions).filterMap
            Revision.record))
      (view (run (History.step keep) (.created files) (es ++ e :: later)).store.documents) := by
  have hnumbered : ∀ es, Numbered (run (History.step keep) (.created files) es) := fun es =>
    run_invariant (numbered_created files) fun _ _ hn => hn.step
  have hstored : Stored (run (History.step keep) (.created files) es).store :=
    run_invariant (I := fun h : History => Stored h.store) (stored_created files)
      fun _ e hs => hs.apply e
  have hn' := hnumbered (es ++ e :: later)
  have hb := hnumbered es
  simp only [run_append, run_cons, run_nil] at *
  generalize run (History.step keep) (.created files) es = before at *
  obtain ⟨rows, hlog, hrows, hreplay⟩ := replay_run (hstored.apply e)
    (h := before.step keep e) fun e' he => hi e' (List.mem_cons_of_mem _ he)
  rw [after_split hn' hlog hb rfl hlow hhigh hrows hkept, List.filterMap_append, replay_append]
  -- the end of the event's own records changes nothing the client can see
  obtain ⟨seen, hseen⟩ : after Revision.number r (e.rows before.store) <:+ e.rows before.store :=
    filter_suffix (rows_ordered _ e) fun a b hab ha => by
      simp only [decide_eq_true_eq] at ha ⊢
      omega
  have hpatch : Patch Same ((e.rows before.store).filterMap Revision.record)
      (view before.store.documents) (view (e.apply keep before.store).documents) :=
    event_records_patch hstored (hi e List.mem_cons_self)
  rw [← hseen, List.filterMap_append] at hpatch
  exact hreplay _ (hpatch.agree_suffix (agree_refl (hstored.apply e)))

end

end

theorem rel_isSome {R : Json → Json → Prop} {a b : Option Json} (h : Option.Rel R a b) :
    a.isSome = b.isSome := by
  cases h <;> rfl

section
local instance : Unicode := .ascii

def saveEvents (items : List Json) (h : (Json.list items).wf = true) (time : Int) : Event :=
  .save "events.json" ⟨.list items, h⟩ (clockAt time time)

def opened : List Event := [.restart (clockAt 0 0)]

def savedDoor (text : String) (time : Int) : Event :=
  saveEvents [.dict [("id", .str text), ("kind", .str "door")]]
    (by simp [Dict.keys]; rintro k v (⟨-, rfl⟩ | ⟨-, rfl⟩) <;> rfl) time

theorem savedDoor_identified (text : String) (time : Int) : (savedDoor text time).Identified := by
  intro item hitem
  have hitem : item = [("id", .str text), ("kind", .str "door")] := by
    simpa [keyedItems, eventItems, list?] using hitem
  subst hitem
  by_cases h : text = "" <;> simp [Identified, rowId, Json.get, Dict.get?, Json.or, truthy, h, sort]

/-- A client at revision 2 follows two later saves. -/
theorem replay_agrees_doors :
    Agree Same
      (replay (view (run (History.step .default) (.created [])
        (opened ++ [savedDoor "1" 1])).store.documents)
        ((after Revision.number 2 (run (History.step .default) (.created [])
          (opened ++ savedDoor "1" 1 :: [savedDoor "2" 2, savedDoor "3" 3])).store.revisions).filterMap
            Revision.record))
      (view (run (History.step .default) (.created [])
        (opened ++ savedDoor "1" 1 :: [savedDoor "2" 2, savedDoor "3" 3])).store.documents) :=
  replay_agrees .default [] opened [savedDoor "2" 2, savedDoor "3" 3] (savedDoor "1" 1) 2
    (by
      intro e he
      simp only [List.mem_cons, List.not_mem_nil, or_false] at he
      rcases he with rfl | rfl | rfl <;> exact savedDoor_identified _ _)
    (by decide) (by decide) (by decide)

/-- An event whose identifier is an object, its keys not in order. -/
def savedObject (n : Int) (time : Int) : Event :=
  saveEvents [.dict [("id", .dict [("b", .int 1), ("a", .int 2)]), ("n", .int n)]]
    (by simp [Dict.keys]; rintro k v (⟨-, rfl⟩ | ⟨-, rfl⟩) <;> simp [Dict.keys, wf]; decide) time

/-- The row is recorded under the text the identifier has in memory, and the
row of the document that is stored goes by the text with its keys sorted: the
client loses it. -/
theorem replay_loses_object :
    (∀ row ∈ (run (History.step .default) (.created [])
        (opened ++ savedObject 1 1 :: [savedObject 2 2])).committed, 2 < row.number →
        row ∈ (run (History.step .default) (.created [])
          (opened ++ savedObject 1 1 :: [savedObject 2 2])).store.revisions) ∧
      ¬ Agree Same
        (replay (view (run (History.step .default) (.created [])
          (opened ++ [savedObject 1 1])).store.documents)
          ((after Revision.number 2 (run (History.step .default) (.created [])
            (opened ++ savedObject 1 1 :: [savedObject 2 2])).store.revisions).filterMap
              Revision.record))
        (view (run (History.step .default) (.created [])
          (opened ++ savedObject 1 1 :: [savedObject 2 2])).store.documents) := by
  refine ⟨by decide, fun h => ?_⟩
  have hk := rel_isSome (h (.event, "\x7b'a': 2, 'b': 1\x7d"))
  exact absurd hk (by decide)

end

end LabProbe.Storage
