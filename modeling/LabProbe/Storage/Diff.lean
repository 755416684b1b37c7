import LabProbe.Py.Json

/-!
# Change rows of a saved document

`labprobe_storage._changes_for_document` and the functions under it. Saving a
document records what changed: row by row for the device lists and the
events, as a whole for the status and every other document, and nothing for
the runtime documents. Fields that change with every sample are left out of
the comparison, and bulky diagnostics out of the recorded device.

`none` stands for the `TypeError` that iterating over a number raises.
-/

namespace LabProbe.Storage

open Py Py.Json

inductive Entity where
  | device | onlineDevice | deviceMeta | event | status | document | system
  deriving DecidableEq, Repr

inductive Operation where
  | upsert | replace | delete | baseline
  deriving DecidableEq, Repr

structure ChangeRow where
  entity : Entity
  operation : Operation
  key : String
  payload : Json

def nonRevisionDocuments : List String :=
  ["device_archive.json", "portmap_history.json", "portmap_router_status.json",
   "portmap_commands.json", "agent_status.json", "agent_update_commands.json", "daily_online.json",
   "geo_cache.json", "router_dashboard.json"]

def volatileDeviceKeys : List String :=
  ["raw", "rssi", "rxrate", "txrate", "channel", "activeTime", "activeTimeSec", "onlinetime",
   "onlineDurationText", "todayOnlineDurationSec", "todayOnlineDurationText", "todayOnlineDate",
   "lastSeenAt", "trafficUpdatedAt", "trafficDate", "trafficText", "flowUp", "flowDown", "flow_cnt",
   "up", "down", "dailyUp", "dailyDown", "todayUpload", "todayDownload", "totalUpload",
   "totalDownload", "dailyUpBytes", "dailyDownBytes", "upBytes", "downBytes", "todayTraffic",
   "realtimeTraffic", "awake", "psm"]

def volatileStatusKeys : List String :=
  ["updatedAt", "devicesUpdatedAt", "backgroundRefreshedAt", "routerLastCheckAt", "routerUpdatedAt",
   "lastSeenAt", "trafficUpdatedAt", "ipv6UpdatedAt", "receivedAt", "receivedEpoch"]

def bulkyDeviceKeys : List String :=
  ["raw", "rawData", "debug", "debugInfo", "ipv6Candidates", "ipv6Records", "packetSamples",
   "history", "samples", "scanResults"]

def endsWith (suffix s : String) : Bool := suffix.toList.isSuffixOf s.toList

def startsWith (pre s : String) : Bool := pre.toList.isPrefixOf s.toList

-- ---------------------------------------------------------------------------
-- Comparable and recorded forms
-- ---------------------------------------------------------------------------

variable [Unicode]

def stableDeviceKey (key : String) : Bool :=
  !volatileDeviceKeys.contains key && !endsWith "bytes" (Unicode.lower key) &&
    !startsWith "flow" (Unicode.lower key)

def stableDevice : Json → Json
  | .dict item => .dict (item.filter fun e => stableDeviceKey e.1)
  | item => item

omit [Unicode] in
def isLongText : Json → Bool
  | .str s => 4096 < s.length
  | _ => false

def revisionDevicePayload : Json → Json
  | .dict item => .dict (item.filter fun e => !bulkyDeviceKeys.contains e.1 && !isLongText e.2)
  | item => item

def stableStatusKey (root : Bool) (key : String) : Bool :=
  !(root && key == "devices") && !volatileStatusKeys.contains key && !endsWith "UpdatedAt" key &&
    !endsWith "RefreshedAt" key

mutual
def stableStatus (root : Bool) : Json → Json
  | .list xs => .list (stableStatusList xs)
  | .dict d => .dict (stableStatusEntries root d)
  | value => value
def stableStatusList : List Json → List Json
  | [] => []
  | x :: xs => stableStatus false x :: stableStatusList xs
def stableStatusEntries (root : Bool) : List (String × Json) → List (String × Json)
  | [] => []
  | (key, child) :: d =>
    if stableStatusKey root key then (key, stableStatus false child) :: stableStatusEntries root d
    else stableStatusEntries root d
end

-- ---------------------------------------------------------------------------
-- Rows of a list
-- ---------------------------------------------------------------------------

/-- The value a row is known by: `mac`, `id`, `date` or its position. -/
def rowId (item : Entries) (fallback : String) : Json :=
  (((get item "mac").or (get item "id")).or (get item "date")).or (.str fallback)

def rowKey (item : Entries) (fallback : String) : String :=
  Unicode.lower (strip (rowId item fallback).toStr)

def items? (value : Json) : Option (List Json) :=
  if !value.truthy then some []
  else match value with
    | .list xs => some xs
    | .str s => some (s.toList.map fun c => .str (String.ofList [c]))
    | .dict d => some (d.map fun e => .str e.1)
    | _ => none

def keyedRow (row : Json × Nat) : Option (String × Entries) :=
  row.1.dict?.map fun item => (rowKey item (toString row.2), item)

/-- The dictionary of the rows of a list, later rows replacing earlier ones. -/
def rowMap (items : List Json) : List (String × Entries) :=
  Dict.ofEntries (items.zipIdx.filterMap keyedRow)

def isDeleted (item : Entries) : Bool := (get item "deleted").truthy

def itemChange (payload : Entries → Json) (entity : Entity) (key : String) (item : Entries) :
    ChangeRow :=
  if isDeleted item then ⟨entity, .delete, key, .null⟩ else ⟨entity, .upsert, key, payload item⟩

def holds (unchanged : Entries → Entries → Bool) (oldMap : List (String × Entries)) (key : String)
    (item : Entries) : Bool :=
  match Dict.get? oldMap key with
  | some previous => unchanged previous item
  | none => false

/-- Both list diffs: new and changed items first, then the keys that are gone. -/
def diffRows (unchanged : Entries → Entries → Bool) (payload : Entries → Json) (entity : Entity)
    (old new : List Json) : List ChangeRow :=
  ((rowMap new).filter fun e => !holds unchanged (rowMap old) e.1 e.2).map
      (fun e => itemChange payload entity e.1 e.2) ++
    ((Dict.keys (rowMap old)).filter fun key => !(Dict.keys (rowMap new)).contains key).map
      fun key => ⟨entity, .delete, key, .null⟩

def listDiffStable (entity : Entity) (old new : Json) : Option (List ChangeRow) := do
  diffRows (fun a b => (stableDevice (.dict a)).eq (stableDevice (.dict b)))
    (fun item => revisionDevicePayload (.dict item)) entity (← items? old) (← items? new)

def listDiff (entity : Entity) (old new : List Json) : List ChangeRow :=
  diffRows (fun a b => (Json.dict a).eq (.dict b)) .dict entity old new

-- ---------------------------------------------------------------------------
-- Documents
-- ---------------------------------------------------------------------------

/-- `len(value or [])`. -/
def length? (value : Json) : Option Nat := (items? value).map List.length

def deviceMeta? (document : Entries) : Option Json := do
  let count ← length? (getD document "online" (.list []))
  some (.dict [("onlineDeviceCount", getD document "onlineDeviceCount" (.int count)),
    ("total", getD document "total" (.int 0))])

def deviceChanges (old new : Entries) : Option (List ChangeRow) := do
  let oldMeta ← deviceMeta? old
  let newMeta ← deviceMeta? new
  let watched ← listDiffStable .device (getD old "watched" (.list [])) (getD new "watched" (.list []))
  let online ←
    listDiffStable .onlineDevice (getD old "online" (.list [])) (getD new "online" (.list []))
  some (watched ++ online ++
    if oldMeta.eq newMeta then [] else [⟨.deviceMeta, .replace, "devices", newMeta⟩])

def statusChanges (old new : Json) : List ChangeRow :=
  if (stableStatus true old).eq (stableStatus true new) then []
  else [⟨.status, .replace, "status", stableStatus true new⟩]

def changesForDocument (key : String) (old new : Json) : Option (List ChangeRow) :=
  if nonRevisionDocuments.contains key then some []
  else if key = "devices.json" then deviceChanges (asDict old) (asDict new)
  else if key = "events.json" then
    some (listDiff .event (old.list?.getD []) (new.list?.getD []))
  else if key = "state.json" then some (statusChanges old new)
  else some [⟨.document, .replace, key, new⟩]

end LabProbe.Storage
