import LabProbe.Devices.Events
import LabProbe.Devices.Midnight
import LabProbe.Hub.MacText
import LabProbe.Lib.Latest
import LabProbe.Lib.Run

/-!
# Watched devices and their events

A push of the router with a device event is logged and brings the record of the
device up to date. An event that a device has gone is not logged if the log has
one of the five minutes before or after, even if the device has come back since:
then the log ends with the device online and the record says offline.

As elsewhere the counters of traffic and the lists of IPv6 addresses, which
nothing here reads, are left out of the rows.
-/

namespace LabProbe.Devices

open Py Py.Json Hub Runs

section
variable [Unicode]

-- ---------------------------------------------------------------------------
-- Snapshots
-- ---------------------------------------------------------------------------

def textOrEmpty (v : Json) : Json := .str (if v.truthy then v.toStr else "")

omit [Unicode] in
def flattened (payload : Entries) : Entries :=
  let nested := asDict (get payload "device")
  if nested.isEmpty then payload
  else Dict.update nested (payload.filter fun e => e.1 ≠ "device")

def endsWith (suffix s : String) : Bool := suffix.toList.isSuffixOf s.toList

/-- `device_snapshot_from_payload`. -/
def deviceSnapshot (now : String) (payload : Entries) : Entries :=
  let payload := flattened payload
  let field := fun key => get payload key
  let mac := normMac (field "mac")
  let name := ((((field "name").or (field "devRecommend")).or (field "hostName")).or (.str mac)).or
    (.str "未知设备")
  let ip := ((field "ip").or (field "userIp")).or (field "lastIp")
  let now := (field "time").or (.str now)
  let since := (((field "onlineSince").or (field "onlinetime")).or (field "startTime")).or now
  let offlineAt := (field "offlineAt").or
    (if endsWith "offline" (getD payload "type" (.str "")).toStr then now else .str "")
  let seconds := (field "onlineDurationSec").or (field "durationSec")
  let duration := field "onlineDurationText"
  let duration := if !duration.truthy && seconds.truthy then
    .str (humanDurationPrecise (toInt seconds 0)) else duration
  let duration := if !duration.truthy && offlineAt.truthy then
    .str (durationBetween since offlineAt) else duration
  [("name", .str name.toStr), ("mac", .str mac), ("ip", textOrEmpty ip), ("lastIp", textOrEmpty ip),
   ("rssi", textOrEmpty (field "rssi")), ("band", textOrEmpty (field "band")),
   ("rxrate", textOrEmpty ((field "rxrate").or (field "rate"))),
   ("ssid", textOrEmpty (field "ssid")),
   ("connectType", textOrEmpty ((field "connectType").or (field "connect_type"))),
   ("onlineSince", textOrEmpty since), ("offlineAt", textOrEmpty offlineAt),
   ("onlineDurationText", textOrEmpty duration),
   ("lastSeenAt", .str ((field "lastSeenAt").or now).toStr),
   ("hostName", textOrEmpty (field "hostName")), ("devType", textOrEmpty (field "devType")),
   ("raw", .dict payload)]

-- ---------------------------------------------------------------------------
-- The watched records
-- ---------------------------------------------------------------------------

/-- The documents that a push changes: events, watched records, archive. -/
structure Watching where
  events : List Entries := []
  watched : List Entries := []
  archive : Json := .null

def followRecord (c : Clock) (archive : Entries) (snapshot : Entries) (online : Bool)
    (eventTime : String) (d : Entries) : Entries :=
  let old := asDict (get archive (normMac (get snapshot "mac")))
  let told := snapshot.filter fun e => cleanSavedValue e.2 != ""
  let nd := Dict.update (mergeNonEmpty old d) told
  let nd := Dict.set (Dict.set nd "online" (.bool online)) "lastChangedAt" (.str eventTime)
  if online then
    Dict.update nd
      [("ip", ((get snapshot "ip").or (get snapshot "lastIp")).or (get d "ip")), ("offlineAt", .null),
       ("onlineSince", (get snapshot "onlineSince").or (.str eventTime)),
       ("lastSeenAt", .str eventTime)]
  else
    hydrateDevice c archive (Dict.update nd
      [("lastIp", ((((get snapshot "lastIp").or (get snapshot "ip")).or (get d "ip")).or
          (get d "lastIp")).or (get old "lastIp")), ("ip", .null),
       ("offlineAt", (get snapshot "offlineAt").or (.str eventTime)),
       ("lastSeenAt", ((get snapshot "lastSeenAt").or (get d "lastSeenAt")).or (.str eventTime))])

def firstRecord (c : Clock) (archive : Entries) (snapshot : Entries) (online : Bool)
    (eventTime : String) : Entries :=
  let nd := Dict.set (Dict.set snapshot "online" (.bool online)) "lastChangedAt" (.str eventTime)
  if online then
    Dict.update nd [("offlineAt", .null),
      ("onlineSince", (get snapshot "onlineSince").or (.str eventTime))]
  else
    hydrateDevice c archive (Dict.update nd [("ip", .null),
      ("offlineAt", (get snapshot "offlineAt").or (.str eventTime))])

/-- `upsert_watched_device_from_event`. -/
def Watching.upsert (s : Watching) (c : Clock) (snapshot : Entries) (online : Bool)
    (eventTime : String) : Watching :=
  let key := normMac (get snapshot "mac")
  let archive := asDict s.archive
  let follow := followRecord c archive snapshot online eventTime
  let found := s.watched.filter fun d => rowMac d = key
  let added :=
    if found.isEmpty && key != "" then [firstRecord c archive snapshot online eventTime] else []
  { s with
    watched := ((s.watched.map fun d => if rowMac d = key then follow d else d) ++ added).map
      compactEntries
    archive := (found.map follow ++ added).foldl (archiveDevice c) s.archive }

-- ---------------------------------------------------------------------------
-- Pushes
-- ---------------------------------------------------------------------------

/-- A push with a device event, and the time it has or arrives at. -/
structure RouterPush where
  clock : Clock
  time : DateTime
  payload : Entries

def RouterPush.online? (p : RouterPush) : Option Bool :=
  let event := cleanSavedValue (get p.payload "event")
  if event ∈ ["online", "device_online"] then some true
  else if event ∈ ["offline", "device_offline"] then some false
  else none

omit [Unicode] in
def wordOf (online : Bool) : String := if online then "online" else "offline"

omit [Unicode] in
def typeOf (online : Bool) : String := "device_" ++ wordOf online

omit [Unicode] in
def RouterPush.request (p : RouterPush) (online : Bool) : Entries :=
  Dict.update p.payload [("type", .str (typeOf online)), ("time", .str p.time.stamp),
    ("lastIp", get p.payload "ip")]

def RouterPush.snapshot (p : RouterPush) (online : Bool) : Entries :=
  deviceSnapshot p.clock.stamp (p.request online)

/-- The address that the snapshot and the event have. -/
def RouterPush.mac (p : RouterPush) (online : Bool) : String :=
  normMac (get (flattened (p.request online)) "mac")

def RouterPush.key (p : RouterPush) (online : Bool) : String := normMac (.str (p.mac online))

/-- The event that is logged. -/
def RouterPush.event (p : RouterPush) (online : Bool) : Entries :=
  let snap := p.snapshot online
  let time := p.time.stamp
  let name := ((get snap "name").or (get snap "mac")).or (.str "未知设备")
  let lastIp := (get snap "lastIp").or (get snap "ip")
  let offlineAt := (get snap "offlineAt").or (.str (if online then "" else time))
  let duration := get snap "onlineDurationText"
  [("type", .str (typeOf online)), ("source", .str "router_push"),
   ("title", .str (name.toStr ++ " " ++ if online then "上线" else "离线")), ("name", name),
   ("mac", get snap "mac"), ("time", .str time), ("createdAt", .str time),
   ("ip", if online then get snap "ip" else lastIp), ("lastIp", lastIp), ("rssi", get snap "rssi"),
   ("band", get snap "band"), ("rxrate", get snap "rxrate"), ("ssid", get snap "ssid"),
   ("onlineSince", get snap "onlineSince"), ("offlineAt", offlineAt),
   ("onlineDurationText", if !online && !duration.truthy then
      .str (durationBetween (get snap "onlineSince") offlineAt) else duration),
   ("oldValue", .str (wordOf !online)), ("newValue", .str (wordOf online)), ("device", .dict snap)]

/-- The log has the device go at most five minutes before or after. -/
def goneNearby (events : List Entries) (key : String) (time : DateTime) : Bool :=
  let last := events.reverse.find? fun e => rowMac e = key && (get e "type").eq (.str (typeOf false))
  match last with
  | some last =>
    match parseTimeSafe ((get last "createdAt").or (get last "time")),
      parseTimeSafe (.str time.stamp) with
    | some before, some now => ((now.seconds : Int) - before.seconds).natAbs ≤ 300
    | _, _ => false
  | none => false

/-- The device events of `api_router_push`. -/
def Watching.push (s : Watching) (p : RouterPush) : Watching :=
  match p.online? with
  | none => s
  | some online =>
    let events :=
      if !online && goneNearby s.events (p.key online) p.time then s.events
      else addEvent s.events (p.event online)
    { s with events }.upsert p.clock (p.snapshot online) online p.time.stamp

-- ---------------------------------------------------------------------------
-- Agreement
-- ---------------------------------------------------------------------------

def deviceWords (events : List Entries) : List (String × String) :=
  events.filterMap fun e => (deviceWord e).map fun word => (rowMac e, word)

/-- The record of a device says what the last event of it says. -/
def Watching.Agrees (s : Watching) : Prop :=
  ∀ key word, key ≠ "" → Latest.last key (deviceWords s.events) = some word →
    ∀ d ∈ s.watched, rowMac d = key → (get d "online").truthy = (word == "online")

/-- The push leaves out the event of a device that the log has online. -/
def Masked (s : Watching) (p : RouterPush) : Prop :=
  p.online? = some false ∧ p.key false ≠ "" ∧ goneNearby s.events (p.key false) p.time = true ∧
    Latest.last (p.key false) (deviceWords s.events) = some "online"

instance (s : Watching) : DecidablePred (Masked s) := fun p =>
  inferInstanceAs (Decidable (p.online? = some false ∧ p.key false ≠ "" ∧
    goneNearby s.events (p.key false) p.time = true ∧
      Latest.last (p.key false) (deviceWords s.events) = some "online"))

-- ---------------------------------------------------------------------------
-- Saved records
-- ---------------------------------------------------------------------------

omit [Unicode] in
mutual
theorem compact_compact : (v : Json) → compact (compact v) = compact v
  | .list xs => by rw [compact, compact, compactList_compactList]
  | .dict d => by rw [compact, compact, compactEntries_compactEntries]
  | .str s => by
    rw [compact]
    split
    · refine compact_str ?_
      rw [takeChars, String.length_ofList, List.length_take]
      exact Nat.min_le_left _ _
    · rename_i h
      exact compact_str (Nat.not_lt.mp h)
  | .null | .bool _ | .int _ | .float _ _ => rfl
theorem compactList_compactList : (xs : List Json) → compactList (compactList xs) = compactList xs
  | [] => rfl
  | x :: xs => by
    rw [compactList, compactList, compact_compact x, compactList_compactList xs]
theorem compactEntries_compactEntries :
    (d : List (String × Json)) → compactEntries (compactEntries d) = compactEntries d
  | [] => rfl
  | (key, v) :: d => by
    rw [compactEntries]
    split
    · exact compactEntries_compactEntries d
    · rename_i h
      rw [compactEntries, if_neg h, compact_compact v, compactEntries_compactEntries d]
end

omit [Unicode] in
theorem keys_compactEntries_sublist (d : Entries) :
    (Dict.keys (compactEntries d)).Sublist (Dict.keys d) := by
  induction d with
  | nil => exact .slnil
  | cons entry d ih =>
    obtain ⟨key, value⟩ := entry
    rw [compactEntries]
    split
    · exact ih.cons key
    · exact ih.cons_cons key

-- ---------------------------------------------------------------------------
-- Fields of a record
-- ---------------------------------------------------------------------------

omit [Unicode] in
theorem nodup_keys_update {d : Entries} (fields : Entries) (hd : (Dict.keys d).Nodup) :
    (Dict.keys (Dict.update d fields)).Nodup := by
  unfold Dict.update
  induction fields generalizing d with
  | nil => exact hd
  | cons entry fields ih => exact ih (Dict.nodup_keys_set _ _ hd)

theorem nodup_keys_fillKey {old out : Entries} (key : String) (h : (Dict.keys out).Nodup) :
    (Dict.keys (fillKey old out key)).Nodup := by
  unfold fillKey
  split
  · exact Dict.nodup_keys_set _ _ h
  · exact h

theorem nodup_keys_hydrateDevice (c : Clock) (archive : Entries) {device : Entries}
    (h : (Dict.keys device).Nodup) : (Dict.keys (hydrateDevice c archive device)).Nodup := by
  have hfold : ∀ (old : Entries) (keys : List String) (out : Entries), (Dict.keys out).Nodup →
      (Dict.keys (keys.foldl (fillKey old) out)).Nodup := by
    intro old keys
    induction keys with
    | nil => exact fun _ hout => hout
    | cons key keys ih => exact fun out hout => ih _ (nodup_keys_fillKey key hout)
  unfold hydrateDevice
  dsimp only
  split
  · exact h
  · split
    · exact hfold _ _ _ h
    · refine nodup_keys_fillKey _ ?_
      split
      · exact Dict.nodup_keys_set _ _ (hfold _ _ _ h)
      · exact hfold _ _ _ h

theorem mergeNonEmpty_cons (base overlay : Entries) (key : String) (value : Json) :
    mergeNonEmpty base ((key, value) :: overlay) =
      mergeNonEmpty (if cleanSavedValue value != "" || (Dict.get? base key).isNone then
        Dict.set base key value else base) overlay := rfl

theorem nodup_keys_mergeNonEmpty {base : Entries} (overlay : Entries) (h : (Dict.keys base).Nodup) :
    (Dict.keys (mergeNonEmpty base overlay)).Nodup := by
  induction overlay generalizing base with
  | nil => exact h
  | cons entry overlay ih =>
    obtain ⟨key, value⟩ := entry
    rw [mergeNonEmpty_cons]
    refine ih ?_
    split
    · exact Dict.nodup_keys_set _ _ h
    · exact h

theorem get?_mergeNonEmpty_of_notMem {base overlay : Entries} {key : String}
    (h : key ∉ Dict.keys overlay) :
    Dict.get? (mergeNonEmpty base overlay) key = Dict.get? base key := by
  induction overlay generalizing base with
  | nil => rfl
  | cons entry overlay ih =>
    obtain ⟨other, value⟩ := entry
    obtain ⟨hother, hrest⟩ := not_or.mp (mt List.mem_cons.mpr h)
    rw [mergeNonEmpty_cons, ih hrest]
    split
    · rw [Dict.get?_set, if_neg (Ne.symm hother)]
    · rfl

theorem get?_mergeNonEmpty (base : Entries) {overlay : Entries} (h : (Dict.keys overlay).Nodup) {key : String}
    {v : Json} (hv : Dict.get? overlay key = some v) :
    Dict.get? (mergeNonEmpty base overlay) key = some v ∨
      (Dict.get? base key).isSome = true ∧
        Dict.get? (mergeNonEmpty base overlay) key = Dict.get? base key := by
  induction overlay generalizing base with
  | nil => cases hv
  | cons entry overlay ih =>
    obtain ⟨other, value⟩ := entry
    obtain ⟨hfresh, hrest⟩ := List.nodup_cons.mp h
    rw [mergeNonEmpty_cons]
    by_cases hkey : other = key
    · subst hkey
      have hvalue : value = v := by simpa [Dict.get?] using hv
      rw [get?_mergeNonEmpty_of_notMem hfresh]
      split
      · rw [Dict.get?_set, if_pos rfl, hvalue]
        exact .inl rfl
      · rename_i hkept
        have hsome := (not_or.mp (mt (Bool.or_eq_true _ _).mpr hkept)).2
        exact .inr ⟨by simpa [Option.isNone_iff_eq_none, Option.isSome_iff_ne_none] using hsome, rfl⟩
    · have hv' : Dict.get? overlay key = some v := by simpa [Dict.get?, hkey] using hv
      have hbase : Dict.get? (if cleanSavedValue value != "" || (Dict.get? base other).isNone then
          Dict.set base other value else base) key = Dict.get? base key := by
        split
        · rw [Dict.get?_set, if_neg hkey]
        · rfl
      rw [← hbase]
      exact ih _ hrest hv'

theorem cleanSavedValue_bool (b : Bool) : cleanSavedValue (.bool b) ≠ "" := by
  have hwords : ∀ t ∈ ["True", "False"], strip t = t ∧ t.toList.all (fun c => c.toNat < 128) = true ∧
      (["", "null", "none", "nan"].contains (asciiLower t) || t == "-") = false ∧ t ≠ "" := by
    decide
  have htext : toStr (.bool b) ∈ ["True", "False"] := by
    cases b
    · exact List.mem_cons_of_mem _ List.mem_cons_self
    · exact List.mem_cons_self
  obtain ⟨hstrip, hascii, hword, hne⟩ := hwords _ htext
  unfold cleanSavedValue
  dsimp only
  rw [hstrip, Unicode.lower_ascii _ hascii, hword]
  exact hne

variable {c : Clock} {archive snapshot nd fields d : Entries} {online : Bool} {eventTime : String}

omit [Unicode] in
theorem get_marked (nd : Entries) (online : Bool) (eventTime : String)
    (hfields : "online" ∉ Dict.keys fields) :
    get (Dict.update (Dict.set (Dict.set nd "online" (.bool online)) "lastChangedAt"
      (.str eventTime)) fields) "online" = .bool online := by
  rw [get_update_of_notMem _ hfields, get_set_of_ne (by decide), get_set, if_pos rfl]

theorem get_hydrated_marked (hfields : "online" ∉ Dict.keys fields) :
    get (hydrateDevice c archive (Dict.update (Dict.set (Dict.set nd "online" (.bool online))
      "lastChangedAt" (.str eventTime)) fields)) "online" = .bool online := by
  have hmarked := get_marked nd online eventTime hfields
  rw [get_hydrateDevice_kept (by rw [hmarked]; exact cleanSavedValue_bool online) (by decide),
    hmarked]

theorem get_online_followRecord :
    get (followRecord c archive snapshot online eventTime d) "online" = .bool online := by
  unfold followRecord
  dsimp only
  split
  · exact get_marked _ _ _ (by simp [Dict.keys])
  · exact get_hydrated_marked (by simp [Dict.keys])

theorem get_online_firstRecord :
    get (firstRecord c archive snapshot online eventTime) "online" = .bool online := by
  unfold firstRecord
  dsimp only
  split
  · exact get_marked _ _ _ (by simp [Dict.keys])
  · exact get_hydrated_marked (by simp [Dict.keys])

omit [Unicode] in
theorem get_mac_marked (hfields : "mac" ∉ Dict.keys fields) :
    get (Dict.update (Dict.set (Dict.set nd "online" (.bool online)) "lastChangedAt"
      (.str eventTime)) fields) "mac" = get nd "mac" := by
  rw [get_update_of_notMem _ hfields, get_set_of_ne (by decide), get_set_of_ne (by decide)]

theorem get_mac_followRecord :
    get (followRecord c archive snapshot online eventTime d) "mac" =
      get (Dict.update (mergeNonEmpty (asDict (get archive (normMac (get snapshot "mac")))) d)
        (snapshot.filter fun e => cleanSavedValue e.2 != "")) "mac" := by
  unfold followRecord
  dsimp only
  split
  · exact get_mac_marked (by simp [Dict.keys])
  · rw [get_mac_hydrateDevice]
    exact get_mac_marked (by simp [Dict.keys])

theorem get_mac_firstRecord :
    get (firstRecord c archive snapshot online eventTime) "mac" = get snapshot "mac" := by
  unfold firstRecord
  dsimp only
  split
  · exact get_mac_marked (by simp [Dict.keys])
  · rw [get_mac_hydrateDevice]
    exact get_mac_marked (by simp [Dict.keys])

omit [Unicode] in
theorem nodup_marked (fields : Entries) (h : (Dict.keys nd).Nodup) :
    (Dict.keys (Dict.update (Dict.set (Dict.set nd "online" (.bool online)) "lastChangedAt"
      (.str eventTime)) fields)).Nodup :=
  nodup_keys_update _ (Dict.nodup_keys_set _ _ (Dict.nodup_keys_set _ _ h))

theorem nodup_followRecord (hold : (Dict.keys (asDict (get archive (normMac (get snapshot "mac"))))).Nodup) :
    (Dict.keys (followRecord c archive snapshot online eventTime d)).Nodup := by
  have hmerged := nodup_keys_update (snapshot.filter fun e => cleanSavedValue e.2 != "")
    (nodup_keys_mergeNonEmpty d hold)
  unfold followRecord
  dsimp only
  split
  · exact nodup_marked _ hmerged
  · exact nodup_keys_hydrateDevice _ _ (nodup_marked _ hmerged)

theorem nodup_firstRecord (hsnapshot : (Dict.keys snapshot).Nodup) :
    (Dict.keys (firstRecord c archive snapshot online eventTime)).Nodup := by
  unfold firstRecord
  dsimp only
  split
  · exact nodup_marked _ hsnapshot
  · exact nodup_keys_hydrateDevice _ _ (nodup_marked _ hsnapshot)

theorem get_mergeNonEmpty (base : Entries) {overlay : Entries} (h : (Dict.keys overlay).Nodup) {key : String}
    (hkey : key ∈ Dict.keys overlay) :
    get (mergeNonEmpty base overlay) key = get overlay key ∨
      base ≠ [] ∧ get (mergeNonEmpty base overlay) key = get base key := by
  obtain ⟨v, hv⟩ := Option.isSome_iff_exists.mp (Dict.get?_isSome.mpr hkey)
  simp only [Json.get]
  rcases get?_mergeNonEmpty base h hv with hmerged | ⟨hsome, hmerged⟩
  · exact .inl (by rw [hmerged, hv])
  · refine .inr ⟨?_, by rw [hmerged]⟩
    rintro rfl
    cases hsome

-- ---------------------------------------------------------------------------
-- The archive
-- ---------------------------------------------------------------------------

omit [Unicode] in
def Archived (archive : Json) : Prop :=
  ∀ e ∈ asDict archive, (Dict.keys (asDict e.2)).Nodup ∧ get (asDict e.2) "mac" = .str e.1

omit [Unicode] in
theorem Archived.row {archive : Json} (h : Archived archive) (key : String) :
    (Dict.keys (asDict (get (asDict archive) key))).Nodup ∧
      (asDict (get (asDict archive) key) = [] ∨
        get (asDict (get (asDict archive) key)) "mac" = .str key) := by
  cases hget : Dict.get? (asDict archive) key with
  | none =>
    have hnull : get (asDict archive) key = .null := by rw [Json.get, hget, Option.getD_none]
    rw [hnull]
    exact ⟨List.nodup_nil, .inl rfl⟩
  | some row =>
    have hrow : get (asDict archive) key = row := by rw [Json.get, hget, Option.getD_some]
    obtain ⟨hnodup, hmac⟩ := h _ (Dict.mem_of_get? hget)
    rw [hrow]
    exact ⟨hnodup, .inr hmac⟩

theorem archived_archiveDevice {archive : Json} (h : Archived archive) (c : Clock)
    (device : Entries) : Archived (archiveDevice c archive device) := by
  unfold archiveDevice
  dsimp only
  split
  · exact h
  · intro e he
    rw [asDict_dict] at he
    rcases Dict.mem_set ((Logs.cap_suffix _ _).subset he) with rfl | hold
    · dsimp only [asDict_dict]
      constructor
      · refine Dict.nodup_keys_set _ _ (Dict.nodup_keys_set _ _ (nodup_keys_mergeNonEmpty _ ?_))
        exact (h.row _).1
      · rw [get_set_of_ne (by decide), get_set, if_pos rfl]
    · exact h e hold

theorem archived_foldl {archive : Json} (h : Archived archive) (c : Clock) (devices : List Entries) :
    Archived (devices.foldl (archiveDevice c) archive) := by
  induction devices generalizing archive with
  | nil => exact h
  | cons device devices ih => exact ih (archived_archiveDevice h c device)

-- ---------------------------------------------------------------------------
-- The address of a record
-- ---------------------------------------------------------------------------

theorem unnamed_address {v : Json} (hclean : cleanSavedValue (.str (normMac v)) = "")
    (hkey : normMac (.str (normMac v)) ≠ "") :
    normMac (.str (normMac v)) ∈ ["null", "none", "nan"] := by
  have hnormal := normalMac_normMac v
  generalize normMac v = m at hclean hkey hnormal
  have hwords : ∀ w ∈ ["null", "none", "nan"],
      strip (String.ofList (replaceAll ['.'] [] 0 (replaceAll ['-'] [':'] 0 w.toList))) = w ∧
        (!w.toList.contains ':' && w.length == 12) = false := by
    decide
  have hempty : m ≠ "" := by
    rintro rfl
    exact hkey rfl
  have htruthy : (Json.str m).truthy = true := by simpa [truthy] using hempty
  have hword : Unicode.lower m ∈ ["", "null", "none", "nan"] := by
    have htext : strip (toStr (.str m)) = m := hnormal.stripped
    unfold cleanSavedValue at hclean
    dsimp only at hclean
    rw [htext] at hclean
    split at hclean
    · rename_i hunset
      rcases (Bool.or_eq_true _ _).mp hunset with hcontains | hdash
      · exact List.contains_iff_mem.mp hcontains
      · rw [beq_iff_eq] at hdash
        exact absurd (by rw [hdash]; decide) hnormal.dash
    · exact absurd hclean hempty
  rw [normMac, htruthy, if_neg (by decide)] at hkey ⊢
  dsimp only at hkey ⊢
  have htext : toStr (.str m) = m := rfl
  rw [htext] at hkey ⊢
  rcases List.mem_cons.mp hword with hlower | hlower
  · rw [hlower] at hkey
    exact absurd (by decide) hkey
  · obtain ⟨hsame, hgroup⟩ := hwords _ hlower
    rw [hsame, hgroup, if_neg Bool.false_ne_true]
    exact hlower

theorem normMac_word {key : String} (h : key ∈ ["null", "none", "nan"]) :
    normMac (.str key) = key ∧ key.length ≤ 65536 := by
  have hascii : key.toList.all (fun c => c.toNat < 128) = true := by
    revert key
    decide
  have hwords : ∀ w ∈ ["null", "none", "nan"], (Json.str w).truthy = true ∧
      strip (String.ofList (replaceAll ['.'] [] 0 (replaceAll ['-'] [':'] 0
        (asciiLower w).toList))) = w ∧
        (!w.toList.contains ':' && w.length == 12) = false ∧ w.length ≤ 65536 := by
    decide
  obtain ⟨htruthy, hsame, hgroup, hlength⟩ := hwords key h
  have hlower : Unicode.lower (toStr (.str key)) = asciiLower key := Unicode.lower_ascii _ hascii
  refine ⟨?_, hlength⟩
  rw [normMac, htruthy, if_neg (by decide)]
  dsimp only
  rw [hlower, hsame, hgroup, if_neg Bool.false_ne_true]

structure Saved (d : Entries) : Prop where
  compacted : compactEntries d = d
  nodup : (Dict.keys d).Nodup

omit [Unicode] in
theorem saved_compactEntries {d : Entries} (h : (Dict.keys d).Nodup) : Saved (compactEntries d) where
  compacted := compactEntries_compactEntries d
  nodup := h.sublist (keys_compactEntries_sublist d)

omit [Unicode] in
theorem Saved.compact_get {d : Entries} (h : Saved d) {key : String}
    (hkey : bulkyKeys.contains key = false) : compact (get d key) = get d key := by
  rw [← get_compactEntries hkey, h.compacted]

theorem rowMac_compactEntries {d : Entries} {m : String} (h : get d "mac" = .str m)
    (hlength : m.length ≤ 65536) : rowMac (compactEntries d) = normMac (.str m) := by
  rw [rowMac, get_compactEntries (by decide), h, compact_str hlength]

theorem rowMac_followRecord {archive : Json} {v : Json} (harchive : Archived archive)
    (hd : Saved d) (hmac : get snapshot "mac" = .str (normMac v))
    (hlength : (normMac v).length ≤ 65536) (hsnapshot : (Dict.keys snapshot).Nodup)
    (hkey : normMac (.str (normMac v)) ≠ "") (hrow : rowMac d = normMac (.str (normMac v))) :
    rowMac (compactEntries (followRecord c (asDict archive) snapshot online eventTime d)) =
      normMac (.str (normMac v)) := by
  have hfollow : get (followRecord c (asDict archive) snapshot online eventTime d) "mac" = _ :=
    get_mac_followRecord
  obtain ⟨-, hold⟩ := harchive.row (normMac (.str (normMac v)))
  rw [hmac] at hfollow
  generalize asDict (get (asDict archive) (normMac (.str (normMac v)))) = old at hfollow hold
  have hnamed : ("mac", .str (normMac v)) ∈ snapshot := by
    cases hget : Dict.get? snapshot "mac" with
    | none =>
      rw [Json.get, hget] at hmac
      cases hmac
    | some w =>
      rw [Json.get, hget] at hmac
      exact Dict.mem_of_get? (hget.trans (congrArg some hmac))
  have hnodup : (Dict.keys (snapshot.filter fun e => cleanSavedValue e.2 != "")).Nodup :=
    Dict.nodup_keys_filter _ hsnapshot
  by_cases hclean : cleanSavedValue (.str (normMac v)) = ""
  · -- the event does not name the device: its record or the archive does
    have htold : "mac" ∉ Dict.keys (snapshot.filter fun e => cleanSavedValue e.2 != "") := by
      intro hmem
      obtain ⟨⟨name, w⟩, he, rfl⟩ := List.mem_map.mp hmem
      obtain ⟨hsnap, hvalue⟩ := List.mem_filter.mp he
      have hsame := (Dict.get?_of_mem hsnapshot hsnap).symm.trans (Dict.get?_of_mem hsnapshot hnamed)
      rw [Option.some.inj hsame] at hvalue
      exact absurd hclean (by simpa using hvalue)
    rw [get_update_of_notMem _ htold] at hfollow
    have hheld : "mac" ∈ Dict.keys d := by
      by_contra hnone
      rw [rowMac, Json.get, Dict.get?_eq_none.mpr hnone] at hrow
      exact hkey hrow.symm
    rcases get_mergeNonEmpty old hd.nodup hheld with hmerged | ⟨hsome, hmerged⟩
    · rw [rowMac, get_compactEntries (by decide), hfollow, hmerged, hd.compact_get (by decide)]
      exact hrow
    · obtain ⟨hword, hshort⟩ := normMac_word (unnamed_address hclean hkey)
      rw [hmerged, hold.resolve_left hsome] at hfollow
      rw [rowMac_compactEntries hfollow hshort, hword]
  · have htold : ("mac", .str (normMac v)) ∈
        snapshot.filter fun e => cleanSavedValue e.2 != "" :=
      List.mem_filter.mpr ⟨hnamed, by simpa using hclean⟩
    rw [get_update_of_mem _ hnodup htold] at hfollow
    exact rowMac_compactEntries hfollow hlength

-- ---------------------------------------------------------------------------
-- One push
-- ---------------------------------------------------------------------------

/-- The records and the archive are as the pushes leave them. -/
structure Watching.Sound (s : Watching) : Prop where
  saved : ∀ d ∈ s.watched, Saved d ∧ rowMac d ≠ ""
  archived : Archived s.archive

/-- The address of the device is not so long that saving cuts it. -/
def RouterPush.Fits (p : RouterPush) : Prop :=
  ∀ online ∈ p.online?, (p.mac online).length ≤ 65536

instance : DecidablePred RouterPush.Fits := fun p =>
  inferInstanceAs (Decidable (∀ online ∈ p.online?, (p.mac online).length ≤ 65536))

theorem get_mac_snapshot (p : RouterPush) (online : Bool) :
    get (p.snapshot online) "mac" = .str (p.mac online) := rfl

theorem nodup_snapshot (p : RouterPush) (online : Bool) : (Dict.keys (p.snapshot online)).Nodup := by
  have hkeys : Dict.keys (p.snapshot online) = ["name", "mac", "ip", "lastIp", "rssi", "band",
    "rxrate", "ssid", "connectType", "onlineSince", "offlineAt", "onlineDurationText",
    "lastSeenAt", "hostName", "devType", "raw"] := rfl
  rw [hkeys]
  decide

theorem mem_upsert {s : Watching} {p : RouterPush} {online : Bool} (hs : s.Sound)
    (hlength : (p.mac online).length ≤ 65536) {d : Entries}
    (hd : d ∈ (s.upsert p.clock (p.snapshot online) online eventTime).watched) :
    (d ∈ s.watched ∧ rowMac d ≠ p.key online) ∨
      Saved d ∧ rowMac d = p.key online ∧ p.key online ≠ "" ∧
        get d "online" = .bool online := by
  have hkey : normMac (get (p.snapshot online) "mac") = p.key online := rfl
  have honline : ∀ row : Entries, get row "online" = .bool online →
      get (compactEntries row) "online" = .bool online := by
    intro row hrow
    rw [get_compactEntries (by decide), hrow]
    rfl
  unfold Watching.upsert at hd
  dsimp only at hd
  rw [hkey] at hd
  obtain ⟨row, hrow, rfl⟩ := List.mem_map.mp hd
  rcases List.mem_append.mp hrow with hold | hnew
  · obtain ⟨old, hmem, rfl⟩ := List.mem_map.mp hold
    obtain ⟨hsaved, hnamed⟩ := hs.saved old hmem
    by_cases hsame : rowMac old = p.key online
    · rw [if_pos hsame]
      have hnonempty : p.key online ≠ "" := hsame ▸ hnamed
      refine .inr ⟨saved_compactEntries ?_, ?_, hnonempty, honline _ get_online_followRecord⟩
      · exact nodup_followRecord (hs.archived.row _).1
      · exact rowMac_followRecord hs.archived hsaved (get_mac_snapshot p online) hlength
          (nodup_snapshot p online) hnonempty hsame
    · rw [if_neg hsame, hsaved.compacted]
      exact .inl ⟨hmem, hsame⟩
  · split at hnew
    · rename_i hadded
      obtain rfl := List.mem_singleton.mp hnew
      have hnonempty : p.key online ≠ "" := by
        simpa using ((Bool.and_eq_true _ _).mp hadded).2
      have hmac : get (firstRecord p.clock (asDict s.archive) (p.snapshot online) online eventTime)
          "mac" = .str (p.mac online) := get_mac_firstRecord
      refine .inr ⟨saved_compactEntries ?_, ?_, hnonempty, honline _ get_online_firstRecord⟩
      · exact nodup_firstRecord (nodup_snapshot p online)
      · exact rowMac_compactEntries hmac hlength
    · cases hnew

theorem sound_push {s : Watching} {p : RouterPush} (hs : s.Sound) (hfits : p.Fits) :
    (s.push p).Sound := by
  unfold Watching.push
  cases honline : p.online? with
  | none => exact hs
  | some online =>
    dsimp only
    generalize (if !online && goneNearby s.events (p.key online) p.time then s.events
      else addEvent s.events (p.event online)) = events
    have hsound : ({ s with events } : Watching).Sound := ⟨hs.saved, hs.archived⟩
    constructor
    · intro d hd
      rcases mem_upsert hsound (hfits online honline) hd with ⟨hold, -⟩ | ⟨hsaved, hrow, hkey, -⟩
      · exact hs.saved d hold
      · exact ⟨hsaved, hrow ▸ hkey⟩
    · exact archived_foldl hs.archived _ _

-- ---------------------------------------------------------------------------
-- The log
-- ---------------------------------------------------------------------------

theorem deviceWords_append (events events' : List Entries) :
    deviceWords (events ++ events') = deviceWords events ++ deviceWords events' :=
  List.filterMap_append

theorem last_of_suffix {events events' : List Entries} {key word : String}
    (hsuffix : events' <:+ events) (h : Latest.last key (deviceWords events') = some word) :
    Latest.last key (deviceWords events) = some word := by
  obtain ⟨dropped, rfl⟩ := hsuffix
  rw [deviceWords_append, Latest.last_append, h, Option.some_or]

theorem deviceWords_event (p : RouterPush) (online : Bool) (id level : Json) :
    deviceWords [Dict.set (Dict.set (p.event online) "id" id) "level" level] =
      [(p.key online, wordOf online)] := by
  have hmac : rowMac (Dict.set (Dict.set (p.event online) "id" id) "level" level) = p.key online := by
    rw [rowMac, get_set_of_ne (by decide), get_set_of_ne (by decide)]
    rfl
  have htype : eventType (Dict.set (Dict.set (p.event online) "id" id) "level" level) =
      typeOf online := by
    rw [eventType, Json.getD, Dict.get?_set, if_neg (by decide), Dict.get?_set,
      if_neg (by decide)]
    rfl
  have hword : deviceWord (Dict.set (Dict.set (p.event online) "id" id) "level" level) =
      some (wordOf online) := by
    rw [deviceWord, htype]
    cases online <;> decide
  rw [deviceWords, List.filterMap_cons, hword, hmac]
  rfl

theorem last_addEvent {events : List Entries} {p : RouterPush} {online : Bool} {key word : String}
    (h : Latest.last key (deviceWords (addEvent events (p.event online))) = some word) :
    if p.key online = key then word = wordOf online
      else Latest.last key (deviceWords events) = some word := by
  unfold addEvent at h
  have hlast := last_of_suffix (Logs.cap_suffix _ _) h
  rw [deviceWords_append, deviceWords_event, Latest.last_append, Latest.last_singleton] at hlast
  split
  · rename_i hkey
    rw [if_pos hkey, Option.some_or] at hlast
    exact (Option.some.inj hlast).symm
  · rename_i hkey
    rwa [if_neg hkey, Option.none_or] at hlast

theorem agrees_push_of_unmasked {s : Watching} {p : RouterPush} (hs : s.Sound) (hagrees : s.Agrees)
    (hfits : p.Fits) (hunmasked : ¬ Masked s p) : (s.push p).Agrees := by
  unfold Watching.push
  cases honline : p.online? with
  | none => exact hagrees
  | some online =>
    dsimp only
    intro key word hkey hlast d hd hrow
    have hsound : ∀ events, ({ s with events } : Watching).Sound := fun _ => ⟨hs.saved, hs.archived⟩
    have hevents : ∀ events : List Entries, (({ s with events } : Watching).upsert p.clock
      (p.snapshot online) online p.time.stamp).events = events := fun _ => rfl
    rw [hevents] at hlast
    rcases mem_upsert (hsound _) (hfits online honline) hd with
      ⟨hold, hother⟩ | ⟨-, hsame, -, hnamed⟩
    · refine hagrees key word hkey ?_ d hold hrow
      split at hlast
      · exact hlast
      · have hbefore := last_addEvent hlast
        rwa [if_neg (hrow ▸ Ne.symm hother)] at hbefore
    · rw [hnamed]
      split at hlast
      · -- the event is left out: the log does not have the device online
        rename_i hgone
        obtain ⟨hoffline, hnearby⟩ := (Bool.and_eq_true _ _).mp hgone
        obtain rfl : online = false := by simpa using hoffline
        have hkeys : p.key false = key := hsame ▸ hrow
        have hword : word ≠ "online" := by
          rintro rfl
          exact hunmasked ⟨honline, hkeys ▸ hkey, hnearby, hkeys ▸ hlast⟩
        rw [beq_eq_false_iff_ne.mpr hword]
        rfl
      · have hword := last_addEvent hlast
        rw [if_pos (hsame ▸ hrow)] at hword
        rw [hword]
        cases online <;> decide

theorem exists_upsert {s : Watching} {p : RouterPush} {online : Bool} (hs : s.Sound)
    (hlength : (p.mac online).length ≤ 65536) (hkey : p.key online ≠ "") :
    ∃ d ∈ (s.upsert p.clock (p.snapshot online) online eventTime).watched,
      rowMac d = p.key online := by
  have hsnapshot : normMac (get (p.snapshot online) "mac") = p.key online := rfl
  unfold Watching.upsert
  dsimp only
  rw [hsnapshot]
  cases hfound : s.watched.filter fun d => rowMac d = p.key online with
  | nil =>
    have hmac : get (firstRecord p.clock (asDict s.archive) (p.snapshot online) online eventTime)
        "mac" = .str (p.mac online) := get_mac_firstRecord
    refine ⟨_, List.mem_map_of_mem (List.mem_append_right _ ?_), rowMac_compactEntries hmac hlength⟩
    simp [hkey]
  | cons row rest =>
    have hmem : row ∈ s.watched.filter fun d => rowMac d = p.key online := by
      rw [hfound]
      exact List.mem_cons_self
    obtain ⟨hwatched, hrow⟩ := List.mem_filter.mp hmem
    have hrow : rowMac row = p.key online := of_decide_eq_true hrow
    refine ⟨_, List.mem_map_of_mem (List.mem_append_left _ (List.mem_map_of_mem hwatched)), ?_⟩
    rw [if_pos hrow]
    exact rowMac_followRecord hs.archived (hs.saved row hwatched).1 (get_mac_snapshot p online)
      hlength (nodup_snapshot p online) hkey hrow

/-- An event that is left out although the log has the device online leaves the
log and the record apart. -/
theorem agrees_push_iff {s : Watching} {p : RouterPush} (hs : s.Sound) (hagrees : s.Agrees)
    (hfits : p.Fits) : (s.push p).Agrees ↔ ¬ Masked s p := by
  refine ⟨?_, agrees_push_of_unmasked hs hagrees hfits⟩
  rintro hafter ⟨honline, hkey, hgone, hlast⟩
  have hpush : s.push p = s.upsert p.clock (p.snapshot false) false p.time.stamp := by
    unfold Watching.push
    rw [honline]
    dsimp only
    rw [hgone]
    rfl
  rw [hpush] at hafter
  obtain ⟨d, hd, hrow⟩ := exists_upsert hs (hfits false honline) hkey
  rcases mem_upsert hs (hfits false honline) hd with ⟨-, hother⟩ | ⟨-, -, -, hnamed⟩
  · exact hother hrow
  · have hwrong := hafter (p.key false) "online" hkey hlast d hd hrow
    rw [hnamed] at hwrong
    revert hwrong
    decide

-- ---------------------------------------------------------------------------
-- Runs
-- ---------------------------------------------------------------------------

/-- Every record says what the log says last of its device after each push of a
run, if and only if no push leaves out the event of a device that the log has online. -/
theorem watched_agrees_iff {pushes : List RouterPush} (hfits : ∀ p ∈ pushes, p.Fits) :
    Along Watching.push (fun s p => (s.push p).Agrees) {} pushes ↔
      Along Watching.push (fun s p => ¬ Masked s p) {} pushes := by
  have hstart : ({} : Watching).Sound ∧ ({} : Watching).Agrees := by
    refine ⟨⟨fun d hd => ?_, fun e he => ?_⟩, fun key word _ hlast => ?_⟩
    · cases hd
    · cases he
    · cases hlast
  refine along_iff_of (I := fun s : Watching => s.Sound ∧ s.Agrees) hfits hstart ?_ ?_
  · rintro s p hp ⟨hs, hagrees⟩ hunmasked
    exact ⟨sound_push hs hp, (agrees_push_iff hs hagrees hp).mpr hunmasked⟩
  · rintro s p hp ⟨hs, hagrees⟩
    exact agrees_push_iff hs hagrees hp

end

attribute [local instance] Unicode.ascii

theorem watched_valid : ∀ minute < 60, isDateTime 2026 1 1 10 minute 0 = true := by decide

/-- A push of the phone in a minute after ten. -/
def phonePush (minute : Fin 60) (event : String) : RouterPush :=
  let time : DateTime := ⟨2026, 1, 1, 10, minute, 0, watched_valid minute minute.isLt⟩
  { clock := ⟨time, 1767261600 + 60 * minute⟩
    time
    payload := [("type", .str "device_event"), ("event", .str event), ("name", .str "phone"),
      ("mac", .str "AA-BB-CC-DD-EE-FF"), ("ip", .str "192.168.5.20")] }

theorem watched_agrees_iff_phone :
    Along Watching.push (fun s p => (s.push p).Agrees) {}
      [phonePush 0 "online", phonePush 10 "offline", phonePush 12 "offline", phonePush 30 "online"] :=
  (watched_agrees_iff (by decide +kernel)).mpr (by decide +kernel)

end LabProbe.Devices
