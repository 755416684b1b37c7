import LabProbe.Devices.Ingest

/-!
# The addresses of devices

Devices are told apart by the address of their row, which every step from
the snapshot to the document leaves alone. What is saved names the devices
of the snapshot as long as no address is so long that saving cuts it.
-/

namespace LabProbe.Devices

open Py Py.Json Hub

-- ---------------------------------------------------------------------------
-- The address of a row
-- ---------------------------------------------------------------------------

theorem get_set_of_ne {d : Entries} {key key' : String} {v : Json} (h : key ≠ key') :
    get (Dict.set d key v) key' = get d key' := by
  rw [get_set, if_neg h]

theorem get_foldl_set {fields : Entries} {d : Entries} {key : String} (h : key ∉ Dict.keys fields) :
    get (fields.foldl (fun row entry => Dict.set row entry.1 entry.2) d) key = get d key := by
  induction fields generalizing d with
  | nil => rfl
  | cons entry fields ih =>
    obtain ⟨hkey, hrest⟩ := not_or.mp (mt List.mem_cons.mpr h)
    rw [List.foldl_cons, ih hrest, get_set_of_ne (Ne.symm hkey)]

theorem get_compactEntries {d : Entries} {key : String} (h : bulkyKeys.contains key = false) :
    get (compactEntries d) key = compact (get d key) := by
  have hget : Dict.get? (compactEntries d) key = (Dict.get? d key).map compact := by
    induction d with
    | nil => rfl
    | cons entry d ih =>
      obtain ⟨key', value⟩ := entry
      rw [compactEntries]
      split
      · rename_i hbulky
        have hne : key' ≠ key := by
          rintro rfl
          rw [h] at hbulky
          cases hbulky
        rw [ih, Dict.get?, if_neg hne]
      · simp only [Dict.get?]
        split
        · rfl
        · exact ih
  rw [Json.get, hget, Json.get]
  cases Dict.get? d key <;> rfl

theorem compactList_dicts (rows : List Entries) :
    compactList (rows.map .dict) = (rows.map compactEntries).map .dict := by
  induction rows with
  | nil => rfl
  | cons row rows ih => rw [List.map_cons, compactList, ih]; rfl

section
variable [Unicode]

def rowMac (row : Entries) : String := normMac (get row "mac")

omit [Unicode] in
theorem get_mac_markDuration (c : Clock) (seconds : Int) (device : Entries) :
    get (markDuration c seconds device) "mac" = get device "mac" := by
  simp only [markDuration, get_set]
  rfl

theorem get_mac_fillKey {old out : Entries} {key : String} (h : key ≠ "mac") :
    get (fillKey old out key) "mac" = get out "mac" := by
  unfold fillKey
  split
  · exact get_set_of_ne h
  · rfl

theorem get_mac_hydrateDevice (c : Clock) (archive device : Entries) :
    get (hydrateDevice c archive device) "mac" = get device "mac" := by
  have hkeys : ∀ old : Entries, ∀ key ∈ hydrateKeys c old, key ≠ "mac" := by
    intro old key hkey
    rw [hydrateKeys, List.mem_append] at hkey
    rcases hkey with hkey | hkey
    · revert key
      decide
    · split at hkey
      · revert key
        decide
      · cases hkey
  have hfold : ∀ (old : Entries) (keys : List String) (out : Entries), (∀ key ∈ keys, key ≠ "mac") →
      get (keys.foldl (fillKey old) out) "mac" = get out "mac" := by
    intro old keys
    induction keys with
    | nil => exact fun _ _ => rfl
    | cons key keys ih =>
      intro out h
      obtain ⟨hkey, hrest⟩ := List.forall_mem_cons.mp h
      rw [List.foldl_cons, ih _ hrest, get_mac_fillKey hkey]
  unfold hydrateDevice
  dsimp only
  split
  · rfl
  · split
    · exact hfold _ _ _ (hkeys _)
    · rw [get_mac_fillKey (by decide)]
      split
      · rw [get_set_of_ne (by decide), hfold _ _ _ (hkeys _)]
      · exact hfold _ _ _ (hkeys _)

theorem get_mac_onlineRow (c : Clock) (archive device : Entries) :
    get (onlineRow c archive device) "mac" = get device "mac" := by
  rw [onlineRow, get_set_of_ne (by decide), get_set_of_ne (by decide), get_set_of_ne (by decide),
    get_mac_hydrateDevice]

theorem get_mac_offlineRow (c : Clock) (old : Entries) :
    get (offlineRow c old) "mac" = get old "mac" := by
  refine get_foldl_set ?_
  simp [Dict.keys]

-- ---------------------------------------------------------------------------
-- Devices by address
-- ---------------------------------------------------------------------------

/-- The addresses of a list of rows, in order. -/
def macs (rows : List Entries) : List String := Dict.keys (deviceMap rows)

theorem nodup_macs (rows : List Entries) : (macs rows).Nodup := Dict.nodup_keys_ofEntries _

theorem deviceMap_entry {rows : List Entries} {entry : String × Entries} (h : entry ∈ deviceMap rows) :
    rowMac entry.2 = entry.1 ∧ entry.1 ≠ "" := by
  obtain ⟨row, -, hrow⟩ := List.mem_filterMap.mp (Dict.mem_ofEntries h)
  dsimp only at hrow
  split at hrow
  · cases hrow
  · rename_i hmac
    cases hrow
    exact ⟨rfl, hmac⟩

theorem keys_rows (rows : List Entries) : Dict.keys (rows.filterMap fun row =>
    let mac := normMac (get row "mac")
    if mac = "" then none else some (mac, row)) = (rows.map rowMac).filter (· ≠ "") := by
  induction rows with
  | nil => rfl
  | cons row rows ih =>
    by_cases hmac : normMac (get row "mac") = ""
    · have hdrop : rowMac row = "" := hmac
      simpa [hmac, hdrop] using ih
    · have hkeep : rowMac row ≠ "" := hmac
      simpa [hmac, hkeep, Dict.keys, rowMac] using ih

theorem macs_congr {rows rows' : List Entries} (h : rows.map rowMac = rows'.map rowMac) :
    macs rows = macs rows' := by
  refine Dict.keys_ofEntries_congr ?_
  rw [keys_rows, keys_rows, h]

/-- The rows of the document of devices. -/
def documentRows (devices : Json) : List Entries :=
  ((get (asDict devices) "online").list?.getD []).filterMap dict?

/-- The addresses that the document of devices says are online. -/
def onlineMacs (devices : Json) : List String := macs (documentRows devices)

-- ---------------------------------------------------------------------------
-- What is saved
-- ---------------------------------------------------------------------------

/-- Saving does not cut the addresses of a snapshot. -/
def ShortAddresses (r : Reading) : Snapshot → Prop
  | .payload payload => ∀ items, (decodePayload r payload >>= payloadItems) = .ok items →
      ∀ item ∈ items, (rowMac item).length ≤ 65536
  | .prepared rows _ => ∀ row ∈ rows.filterMap dict?, compact (get row "mac") = get row "mac"

omit [Unicode] in
theorem compact_str {s : String} (h : s.length ≤ 65536) : compact (.str s) = .str s := by
  rw [compact, if_neg (Nat.not_lt.mpr h)]

theorem mem_markDurations {c : Clock} {entries : Entries} {devices : List Entries} {row : Entries}
    (h : row ∈ markDurations c entries devices) :
    ∃ device ∈ devices, get row "mac" = get device "mac" := by
  induction devices with
  | nil => cases h
  | cons device devices ih =>
    rw [markDurations, List.mem_cons] at h
    rcases h with rfl | h
    · refine ⟨device, List.mem_cons_self, ?_⟩
      split
      · rfl
      · exact get_mac_markDuration _ _ _
    · obtain ⟨device', hmem, hmac⟩ := ih h
      exact ⟨device', List.mem_cons_of_mem _ hmem, hmac⟩

theorem collect_short {r : Reading} {c : Clock} {daily daily' : Json} {snapshot : Snapshot}
    {online : List Entries} {total : Int} (hshort : ShortAddresses r snapshot)
    (h : collect r c daily snapshot = .ok (online, total, daily')) :
    ∀ row ∈ online, compact (get row "mac") = get row "mac" := by
  cases snapshot with
  | payload payload =>
    obtain ⟨⟨devices, total'⟩, hparse, hrest⟩ := Check.bind_eq_ok.mp h
    obtain ⟨payload', hdecode, hparse⟩ := Check.bind_eq_ok.mp hparse
    obtain ⟨items, hitems, hparse⟩ := Check.bind_eq_ok.mp hparse
    obtain ⟨read, hread, hparse⟩ := Check.bind_eq_ok.mp hparse
    obtain rfl : read = devices := (Prod.mk.inj (Except.ok.inj hparse)).1
    obtain rfl : (updateDailyOnlineDurations c read daily).1 = online :=
      (Prod.mk.inj (Except.ok.inj hrest)).1
    have hlength := hshort items (Check.bind_eq_ok.mpr ⟨payload', hdecode, hitems⟩)
    intro row hrow
    obtain ⟨device, hdevice, hmac⟩ := mem_markDurations hrow
    obtain ⟨item, hitem, hdevice⟩ := Check.exists_of_mem_right (Check.mapM_ok hread) device hdevice
    have hrowMac : get device "mac" = .str (rowMac item) := by
      unfold readItem at hdevice
      split at hdevice
      · cases hdevice
      · cases hdevice
        rfl
    rw [hmac, hrowMac, compact_str (hlength item hitem)]
  | prepared rows total' =>
    obtain rfl : rows.filterMap dict? = online := (Prod.mk.inj (Except.ok.inj h)).1
    exact hshort

def hydratedRows (c : Clock) (d : Documents) (online : List Entries) : List Entries :=
  online.map (onlineRow c (asDict d.archive))

omit [Unicode] in
theorem documentRows_compact (before after : Entries) (rows : List Entries)
    (h : "online" ∉ Dict.keys before) :
    documentRows (compact (.dict (before ++ ("online", .list (rows.map .dict)) :: after))) =
      rows.map compactEntries := by
  have honline : get (before ++ ("online", .list (rows.map .dict)) :: after) "online" =
      .list (rows.map .dict) := by
    rw [Json.get, Dict.get?_append, Dict.get?_eq_none.mpr h]
    rfl
  rw [documentRows, compact, asDict_dict, get_compactEntries (by decide), honline, compact,
    compactList_dicts]
  exact List.filterMap_map.trans List.filterMap_some

theorem documentRows_accept (c : Clock) (online : List Entries) (total : Int) (d : Documents) :
    documentRows (acceptDocuments c online total d).devices =
      (hydratedRows c d online).map compactEntries := by
  exact documentRows_compact [("source", .str "labrelay_durable_snapshot"),
    ("updatedAt", .str c.stamp), ("onlineDeviceCount", _), ("total", .int total)] [] _ (by simp [Dict.keys])

theorem onlineMacs_accept {c : Clock} {online : List Entries} {total : Int} {d : Documents}
    (hshort : ∀ row ∈ online, compact (get row "mac") = get row "mac") :
    onlineMacs (acceptDocuments c online total d).devices = macs (hydratedRows c d online) := by
  rw [onlineMacs, documentRows_accept]
  refine macs_congr ?_
  rw [List.map_map]
  refine List.map_congr_left fun row hrow => ?_
  obtain ⟨device, hdevice, rfl⟩ := List.mem_map.mp hrow
  rw [Function.comp_apply, rowMac, get_compactEntries (by decide), get_mac_onlineRow, hshort device hdevice, rowMac,
    get_mac_onlineRow]

end

end LabProbe.Devices
