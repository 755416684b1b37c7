import LabProbe.Devices.Daily
import LabProbe.Lib.Log

/-!
# Device snapshots

`ingest` takes the list of devices that are online, compares it with the one
before, records who has come and who has gone, and saves the new list. An
empty list is only believed the second time.

Every row is a dictionary. The counters of traffic and the lists of IPv6
addresses, which nothing here reads, are left out of the rows, and the cards
of watched devices out of the document. So are infinities: the seconds and
bytes of a row are numbers that the Hub has counted.
-/

namespace LabProbe.Devices

open Py Py.Json Hub

/-- The documents about devices: daily online durations, devices, archive,
daily summaries and events. -/
structure Documents where
  daily : Json := .null
  devices : Json := .null
  archive : Json := .null
  rollups : Json := .null
  events : List Entries := []

/-- `DurableDeviceHistory`: its own fields, its health record and the documents. -/
structure DurableDeviceHistory where
  emptyStreak : Nat := 0
  lastSnapshotAt : String := ""
  lastError : String := ""
  health : Json := .null
  documents : Documents := {}

/-- What reading a snapshot uses besides the clock: `json.loads`, and what
reading the counters of an item raises. -/
structure Reading where
  loads : String → Except String Json
  fault : Entries → Option String

inductive Outcome where
  | accepted (onlineDeviceCount : Nat)
  | deferredEmpty (emptyStreak onlineDeviceCount : Nat)
  | failed (error : String)
  deriving DecidableEq

def Outcome.isAccepted : Outcome → Bool
  | .accepted _ => true
  | _ => false

-- ---------------------------------------------------------------------------
-- Saving
-- ---------------------------------------------------------------------------

def bulkyKeys : List String :=
  ["raw", "rawData", "debug", "debugInfo", "packetSamples", "scanResults", "samples"]

mutual
/-- `_compact_runtime_document`. -/
def compact : Json → Json
  | .list xs => .list (compactList xs)
  | .dict d => .dict (compactEntries d)
  | .str s => if 65536 < s.length then .str (takeChars 65536 s) else .str s
  | v => v
def compactList : List Json → List Json
  | [] => []
  | x :: xs => compact x :: compactList xs
def compactEntries : List (String × Json) → Entries
  | [] => []
  | (key, value) :: d =>
    if bulkyKeys.contains key then compactEntries d else (key, compact value) :: compactEntries d
end

attribute [local grind =] compact compactList compactEntries

def addEvent (events : List Entries) (event : Entries) : List Entries :=
  let nextId := match events.getLast? with
    | some last => intOf 0 (getD last "id" (.int 0)) + 1
    | none => 1
  Logs.cap 1000 (events ++ [Dict.set (Dict.set event "id" (.int nextId)) "level" (.str "normal")])

section
variable [Unicode]

def integer (v : Json) : Int := max 0 (((parseFloat (strip v.toStr)).map truncate).getD 0)

def firstText : List Json → String
  | [] => ""
  | v :: vs => if cleanSavedValue v = "" then firstText vs else cleanSavedValue v

-- ---------------------------------------------------------------------------
-- Reading
-- ---------------------------------------------------------------------------

def preferName (item : Entries) : String :=
  let named := ["devUserDefine", "devRecommend", "hostName", "name", "manufacture", "mac"].find?
    fun key => !(get item key).eq .null && !(get item key).eq (.str "")
  (named.map fun key => (get item key).toStr).getD "未知设备"

def deviceRow (c : Clock) (item : Entries) : Entries :=
  let seconds := todayOnlineSeconds c.now item
  [("name", .str (preferName item)), ("mac", .str (normMac (get item "mac"))),
   ("online", .bool true), ("ip", get item "userIp"), ("connectType", get item "connectType"),
   ("ssid", get item "ssid"), ("band", get item "band"), ("rssi", get item "rssi"),
   ("rxrate", get item "rxrate"), ("channel", get item "channel"),
   ("onlinetime", get item "onlinetime"), ("onlineSince", get item "onlinetime"),
   ("activeTimeSec", .int (toInt (get item "activeTime") 0)),
   ("onlineDurationText", .str (humanDuration (toInt (get item "activeTime") 0))),
   ("todayOnlineDurationSec", .int seconds),
   ("todayOnlineDurationText", .str (humanDuration seconds)),
   ("todayOnlineDate", .str c.day), ("lastSeenAt", .str c.stamp),
   ("hostName", get item "hostName"), ("manufacture", get item "manufacture"),
   ("osType", get item "osType"), ("devType", get item "devType"),
   ("devRecommend", get item "devRecommend"), ("deviceAliasName", get item "deviceAliasName"),
   ("raw", .dict item)]

def payloadItems (payload : Json) : Except String (List Entries) :=
  let items := match payload with
    | .dict d => getD d "list" (.list [])
    | _ => .list []
  match items with
  | .list xs => .ok ((xs.filterMap dict?).filter fun item => normMac (get item "mac") != "")
  -- the keys of a dictionary and the characters of a text are no rows
  | .dict _ | .str _ => .ok []
  | value => .error ("'" ++ typeName value ++ "' object is not iterable")

def readItem (r : Reading) (c : Clock) (item : Entries) : Except String Entries :=
  match r.fault item with
  | some message => .error message
  | none => .ok (deviceRow c item)

def decodePayload (r : Reading) : Json → Except String Json
  | .str s => r.loads s
  | value => .ok value

/-- `parse_ruijie_devices`. -/
def parseDevices (r : Reading) (c : Clock) (payload : Json) :
    Except String (List Entries × Int) := do
  let payload ← decodePayload r payload
  let devices ← (← payloadItems payload).mapM (readItem r c)
  let total := match payload with
    | .dict d => toInt (get d "total") devices.length
    | _ => devices.length
  .ok (devices, total)

-- ---------------------------------------------------------------------------
-- The archive
-- ---------------------------------------------------------------------------

omit [Unicode] in
def hydrateKeys (c : Clock) (old : Entries) : List String :=
  ["name", "lastIp", "ssid", "band", "rssi", "rxrate", "channel", "connectType", "onlineSince",
   "onlineDurationText", "lastSeenAt", "hostName", "devType", "osType", "manufacture",
   "devRecommend", "wolMode"] ++
  if (get old "todayOnlineDate").eq (.str c.day) then
    ["todayOnlineDurationSec", "todayOnlineDurationText", "todayOnlineDate"]
  else []

def fillKey (old out : Entries) (key : String) : Entries :=
  if cleanSavedValue (get out key) = "" && cleanSavedValue (get old key) != "" then
    Dict.set out key (get old key)
  else out

/-- `hydrate_device_with_archive`. -/
def hydrateDevice (c : Clock) (archive device : Entries) : Entries :=
  let mac := normMac (get device "mac")
  let old := asDict (get archive mac)
  if mac = "" || old.isEmpty then device else
  let out := (hydrateKeys c old).foldl (fillKey old) device
  if (get out "online").truthy then out else
  let ip := (get old "lastIp").or (get old "ip")
  let out := if cleanSavedValue (get out "ip") = "" && cleanSavedValue ip != "" then
    Dict.set out "lastIp" ip else out
  fillKey old out "offlineAt"

def mergeNonEmpty (base overlay : Entries) : Entries :=
  overlay.foldl (fun out (key, value) =>
    if cleanSavedValue value != "" || (Dict.get? out key).isNone then Dict.set out key value
    else out) base

omit [Unicode] in
def archiveKeys : List String :=
  ["name", "mac", "ip", "lastIp", "ssid", "band", "rssi", "rxrate", "channel", "connectType",
   "onlineSince", "onlineDurationText", "lastSeenAt", "offlineAt", "todayOnlineDurationSec",
   "todayOnlineDurationText", "todayOnlineDate", "hostName", "devType", "osType", "manufacture",
   "devRecommend", "wolMode"]

/-- `archive_device_snapshot`. -/
def archiveDevice (c : Clock) (archive : Json) (device : Entries) : Json :=
  let mac := normMac (get device "mac")
  if mac = "" then archive else
  let kept := archiveKeys.filterMap fun key => (Dict.get? device key).map fun v => (key, v)
  let kept := if cleanSavedValue (get kept "ip") = "" then kept
    else Dict.set kept "lastIp" (get kept "ip")
  let merged := mergeNonEmpty (asDict (get (asDict archive) mac)) kept
  let merged := Dict.set (Dict.set merged "mac" (.str mac)) "archivedAt" (.str c.stamp)
  .dict (Logs.cap 500 (Dict.set (asDict archive) mac (.dict merged)))

-- ---------------------------------------------------------------------------
-- Coming and going
-- ---------------------------------------------------------------------------

def onlineRow (c : Clock) (archive device : Entries) : Entries :=
  Dict.set (Dict.set (Dict.set (hydrateDevice c archive device) "online" (.bool true))
    "lastSeenAt" (.str c.stamp)) "offlineAt" .null

def offlineRow (c : Clock) (old : Entries) : Entries :=
  let seconds := integer (get old "todayOnlineDurationSec")
  let text := cleanSavedValue (get old "todayOnlineDurationText")
  let date := cleanSavedValue (get old "todayOnlineDate")
  [("online", .bool false),
   ("lastIp", .str (cleanSavedValue ((get old "ip").or (get old "lastIp")))),
   ("ip", .null), ("offlineAt", .str c.stamp), ("lastChangedAt", .str c.stamp),
   ("todayOnlineDurationSec", .int seconds),
   ("todayOnlineDurationText", .str (if text = "" then humanDuration seconds else text)),
   ("todayOnlineDate", .str (if date = "" then c.day else date))].foldl
    (fun row (key, value) => Dict.set row key value) old

def durationBetween (start finish : Json) : String :=
  match parseTimeSafe start, parseTimeSafe finish with
  | some s, some e => humanDurationPrecise ((e.seconds : Int) - s.seconds)
  | _, _ => ""

def transitionEvent (c : Clock) (online : Bool) (device previous : Entries) : Entries :=
  let name := firstText [get device "name", get previous "name"]
  let name := if name = "" then normMac (get device "mac") else name
  let name := if name = "" then "未知设备" else name
  let since := firstText [get device "onlineSince", get previous "onlineSince",
    .str (if online then c.stamp else "")]
  let offlineAt := if online then "" else c.stamp
  let duration := if online then "" else
    let between := durationBetween (.str since) (.str offlineAt)
    if between = "" then
      cleanSavedValue ((get previous "todayOnlineDurationText").or (get previous "onlineDurationText"))
    else between
  let ip := cleanSavedValue ((((get device "ip").or (get device "lastIp")).or (get previous "ip")).or
    (get previous "lastIp"))
  let field := fun key => (key, getD device key (get previous key))
  [("type", .str (if online then "device_online" else "device_offline")),
   ("source", .str "durable_device_snapshot"),
   ("title", .str (name ++ " " ++ if online then "上线" else "离线")), ("name", .str name),
   ("mac", .str (normMac ((get device "mac").or (get previous "mac")))),
   ("createdAt", .str c.stamp), ("time", .str c.stamp), ("ip", .str ip), ("lastIp", .str ip),
   field "rssi", field "band", field "rxrate", field "ssid", field "connectType",
   ("onlineSince", .str since), ("offlineAt", .str offlineAt), ("onlineDurationText", .str duration),
   ("oldValue", .str (if online then "offline" else "online")),
   ("newValue", .str (if online then "online" else "offline")),
   ("device", .dict (if online then device else previous))]

def transitionEvents (c : Clock) (current previous : List (String × Entries)) : List Entries :=
  (current.filter fun entry => (Dict.get? previous entry.1).isNone).map
    (fun entry => transitionEvent c true entry.2 []) ++
  (previous.filter fun entry => (Dict.get? current entry.1).isNone).map
    fun entry => transitionEvent c false (offlineRow c entry.2) entry.2

-- ---------------------------------------------------------------------------
-- Daily summaries
-- ---------------------------------------------------------------------------

def longerDuration (entry device : Entries) : Json :=
  .int (max (integer (get entry "onlineDurationSec")) (integer (get device "todayOnlineDurationSec")))

def rollupNamed (mac : String) (entry device : Entries) : Entries :=
  let name := firstText [get device "name", get entry "name"]
  let ip := firstText [(get device "ip").or (get device "lastIp"), get entry "ip"]
  Dict.set (Dict.set (Dict.set entry "mac" (.str mac)) "name" (.str (if name = "" then mac else name)))
    "ip" (.str ip)

def rollupOnline (c : Clock) (mac : String) (entry device : Entries) : Entries :=
  [("online", .bool true),
   ("onlineSince", .str (firstText [get device "onlineSince", get entry "onlineSince", .str c.stamp])),
   ("firstSeenAt", .str (firstText [get entry "firstSeenAt", .str c.stamp])),
   ("lastSeenAt", .str c.stamp), ("offlineAt", .str ""),
   ("onlineDurationSec", longerDuration entry device)].foldl
    (fun row (key, value) => Dict.set row key value) (rollupNamed mac entry device)

def rollupOffline (c : Clock) (mac : String) (entry old : Entries) : Entries :=
  [("online", .bool false),
   ("onlineSince", .str (firstText [get old "onlineSince", get entry "onlineSince"])),
   ("lastSeenAt", .str (firstText [get old "lastSeenAt", get entry "lastSeenAt"])),
   ("offlineAt", .str c.stamp), ("onlineDurationSec", longerDuration entry old)].foldl
    (fun row (key, value) => Dict.set row key value) (rollupNamed mac entry old)

omit [Unicode] in
def keepDays (days : Entries) : Entries :=
  let kept := Logs.cap 120 ((Dict.keys days).mergeSort fun a b => decide (a ≤ b))
  days.filter fun entry => kept.contains entry.1

def updateRollup (c : Clock) (current previous : List (String × Entries)) (root : Json) : Json :=
  let days := asDict (get (asDict root) "days")
  let dayRow := asDict (get days c.day)
  let entries := current.foldl (fun entries (mac, device) =>
    Dict.set entries mac (.dict (rollupOnline c mac (asDict (get entries mac)) device)))
    (asDict (get dayRow "devices"))
  let gone := previous.filter fun entry => (Dict.get? current entry.1).isNone
  let entries := gone.foldl (fun entries (mac, old) =>
    Dict.set entries mac (.dict (rollupOffline c mac (asDict (get entries mac)) old))) entries
  let dayRow := Dict.set (Dict.set (Dict.set dayRow "date" (.str c.day)) "updatedAt" (.str c.stamp))
    "devices" (.dict entries)
  .dict [("version", .int 2), ("days", .dict (keepDays (Dict.set days c.day (.dict dayRow)))),
    ("updatedAt", .str c.stamp)]

-- ---------------------------------------------------------------------------
-- Ingestion
-- ---------------------------------------------------------------------------

omit [Unicode] in
def DurableDeviceHistory.saveHealth (c : Clock) (accepted : Bool) (count : Nat) (error : String)
    (s : DurableDeviceHistory) : DurableDeviceHistory :=
  let lastError := if error != "" then error else if accepted then "" else s.lastError
  let lastSnapshotAt := if error = "" && accepted then c.stamp else s.lastSnapshotAt
  { s with
    lastError := lastError
    lastSnapshotAt := lastSnapshotAt
    health := .dict [("accepted", .bool accepted), ("onlineDeviceCount", .int count),
      ("emptyStreak", .int s.emptyStreak), ("lastSnapshotAt", .str lastSnapshotAt),
      ("lastError", .str lastError), ("updatedAt", .str c.stamp)] }

/-- A snapshot: what the router has sent, or rows that another reader has
prepared, with their total. -/
inductive Snapshot where
  | payload (payload : Json)
  | prepared (rows : List Json) (total : Json)

/-- The rows of a snapshot, their total, and the durations that are saved. -/
def collect (r : Reading) (c : Clock) (daily : Json) :
    Snapshot → Except String (List Entries × Int × Json)
  | .payload payload => do
    let (devices, total) ← parseDevices r c payload
    let (online, daily) := updateDailyOnlineDurations c devices daily
    .ok (online, total, daily)
  | .prepared rows total =>
    let online := rows.filterMap dict?
    .ok (online, max online.length (integer total), daily)

def previousOnline (devices : Json) : List (String × Entries) :=
  deviceMap (((get (asDict devices) "online").list?.getD []).filterMap dict?)

def acceptDocuments (c : Clock) (online : List Entries) (total : Int) (d : Documents) : Documents :=
  let previous := previousOnline d.devices
  let hydrated := online.map (onlineRow c (asDict d.archive))
  let current := deviceMap hydrated
  let gone := (previous.filter fun entry => (Dict.get? current entry.1).isNone).map
    fun entry => offlineRow c entry.2
  { d with
    events := (transitionEvents c current previous).foldl addEvent d.events
    archive := (gone ++ hydrated).foldl (archiveDevice c) d.archive
    devices := compact (.dict [("source", .str "labrelay_durable_snapshot"),
      ("updatedAt", .str c.stamp), ("onlineDeviceCount", .int hydrated.length),
      ("total", .int total), ("online", .list (hydrated.map .dict))])
    rollups := updateRollup c current previous d.rollups }

def ingest (r : Reading) (c : Clock) (snapshot : Snapshot) (s : DurableDeviceHistory) :
    Outcome × DurableDeviceHistory :=
  match collect r c s.documents.daily snapshot with
  | .error message => (.failed message, s.saveHealth c false 0 message)
  | .ok (online, total, daily) =>
    let s := { s with documents := { s.documents with daily := daily } }
    let previous := previousOnline s.documents.devices
    let empty := online.isEmpty && !previous.isEmpty
    let s := { s with emptyStreak := if empty then s.emptyStreak + 1 else 0 }
    if empty && s.emptyStreak < 2 then
      (.deferredEmpty s.emptyStreak previous.length,
        s.saveHealth c false 0 "empty snapshot awaiting confirmation")
    else
      (.accepted online.length,
        { s with documents := acceptDocuments c online total s.documents }.saveHealth c true
          online.length "")

theorem ingest_cases {r : Reading} {c : Clock} {snapshot : Snapshot} {s s' : DurableDeviceHistory}
    {outcome : Outcome} (h : ingest r c snapshot s = (outcome, s')) :
    (∃ message, collect r c s.documents.daily snapshot = .error message ∧
      outcome = .failed message ∧ s'.documents = s.documents) ∨
    (∃ total daily, collect r c s.documents.daily snapshot = .ok ([], total, daily) ∧
      outcome.isAccepted = false ∧ s'.documents = { s.documents with daily := daily }) ∨
    (∃ online total daily, collect r c s.documents.daily snapshot = .ok (online, total, daily) ∧
      outcome = .accepted online.length ∧
      s'.documents = acceptDocuments c online total { s.documents with daily := daily }) := by
  rw [ingest] at h
  cases hcollect : collect r c s.documents.daily snapshot with
  | error message =>
    rw [hcollect] at h
    cases h
    exact .inl ⟨message, rfl, rfl, rfl⟩
  | ok collected =>
    obtain ⟨online, total, daily⟩ := collected
    rw [hcollect] at h
    dsimp only at h
    generalize hempty : (online.isEmpty && !(previousOnline s.documents.devices).isEmpty) = empty at h
    generalize (if empty = true then s.emptyStreak + 1 else 0) = streak at h
    split at h
    · rename_i hdeferred
      cases h
      rw [Bool.and_eq_true] at hdeferred
      obtain ⟨rfl, -⟩ := hdeferred
      rw [Bool.and_eq_true, List.isEmpty_iff] at hempty
      obtain ⟨rfl, -⟩ := hempty
      exact .inr (.inl ⟨total, daily, rfl, rfl, rfl⟩)
    · cases h
      exact .inr (.inr ⟨online, total, daily, rfl, rfl, rfl⟩)

end

end LabProbe.Devices
