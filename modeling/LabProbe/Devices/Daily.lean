import LabProbe.Hub.Values
import LabProbe.Py.DateTime

/-!
# Daily online durations

The Hub counts how long each device has been online today, from one list of
online devices to the next, in a document of its own.
-/

namespace LabProbe.Devices

open Py Py.Json Hub

/-- One reading of the clock: the local time, and the seconds of the epoch. -/
structure Clock where
  now : DateTime
  epoch : Int

def Clock.day (c : Clock) : String := c.now.isoDate

def Clock.stamp (c : Clock) : String := c.now.stamp

-- ---------------------------------------------------------------------------
-- Durations
-- ---------------------------------------------------------------------------

def humanDuration (seconds : Int) : String :=
  if seconds ≤ 0 then "" else
  let h := seconds.toNat / 3600
  let m := seconds.toNat % 3600 / 60
  if 0 < h then toString h ++ "小时" ++ String.ofList (DateTime.zeroPadded 2 m) ++ "分"
  else toString m ++ "分"

/-- `human_duration_precise`, of a number. -/
def humanDurationPrecise (seconds : Int) : String :=
  if seconds ≤ 0 then "" else
  let h := seconds.toNat / 3600
  let m := seconds.toNat % 3600 / 60
  let s := seconds.toNat % 60
  let two := fun n => String.ofList (DateTime.zeroPadded 2 n)
  if 0 < h then toString h ++ "小时" ++ two m ++ "分" ++ two s ++ "秒"
  else if 0 < m then toString m ++ "分" ++ two s ++ "秒"
  else toString s ++ "秒"

section
variable [Unicode]

def parseTimeSafe (v : Json) : Option DateTime :=
  if v.truthy then DateTime.parse (takeChars 19 (strip v.toStr)) else none

/-- `today_online_seconds_from_item`. -/
def todayOnlineSeconds (now : DateTime) (item : Entries) : Int :=
  let sinceMidnight : Int := now.secondOfDay
  let active := toInt (((get item "activeTime").or (get item "onlineDurationSec")).or
    (get item "durationSec")) 0
  match parseTimeSafe (((get item "onlinetime").or (get item "onlineSince")).or
      (get item "startTime")) with
  | some start =>
    let midnight : Int := now.seconds - sinceMidnight
    max 0 (min sinceMidnight (now.seconds - max (start.seconds : Int) midnight))
  | none => if 0 < active then min active sinceMidnight else 0

def deviceMap (rows : List Entries) : List (String × Entries) :=
  Dict.ofEntries (rows.filterMap fun row =>
    let mac := normMac (get row "mac")
    if mac = "" then none else some (mac, row))

-- ---------------------------------------------------------------------------
-- The document
-- ---------------------------------------------------------------------------

omit [Unicode] in
/-- The document of today, a new one where the stored one is of another day. -/
def openDaily (c : Clock) (stored : Json) : Entries :=
  let fresh := [("date", .str c.day), ("devices", .dict []), ("updatedAt", .str c.stamp)]
  match stored with
  | .dict state => if (get state "date").eq (.str c.day) then state else fresh
  | _ => fresh

omit [Unicode] in
def closeEntry (c : Clock) (present : List String) (mac : String) : Json → Json
  | .dict entry =>
    if present.contains mac then .dict entry
    else .dict (Dict.set (Dict.set entry "online" (.bool false)) "lastSampleEpoch" (.int c.epoch))
  | _ => .dict [("seconds", .int 0), ("online", .bool false), ("lastSampleEpoch", .int c.epoch)]

def countSeconds (c : Clock) (device entry : Entries) : Int :=
  let seed := todayOnlineSeconds c.now ((get device "raw").dict?.getD device)
  let counted := max 0 (toInt (get entry "seconds") 0)
  let last := toInt (get entry "lastSampleEpoch") 0
  let counted :=
    if (get entry "online").truthy && 0 < last then counted + min (max 0 (c.epoch - last)) 300
    else counted
  max seed counted

def sampleEntry (c : Clock) (device entry : Entries) : Entries :=
  let firstSeen := cleanSavedValue (get entry "firstSeenAt")
  [("seconds", .int (countSeconds c device entry)), ("online", .bool true),
   ("firstSeenAt", .str (if firstSeen = "" then c.stamp else firstSeen)),
   ("lastSeenAt", .str c.stamp), ("lastSampleEpoch", .int c.epoch)]

omit [Unicode] in
def markDuration (c : Clock) (seconds : Int) (device : Entries) : Entries :=
  Dict.set (Dict.set (Dict.set device "todayOnlineDurationSec" (.int seconds))
    "todayOnlineDurationText" (.str (humanDuration seconds))) "todayOnlineDate" (.str c.day)

def markDurations (c : Clock) (entries : Entries) : List Entries → List Entries
  | [] => []
  | device :: devices =>
    let mac := normMac (get device "mac")
    (if mac = "" || (devices.map fun d => normMac (get d "mac")).contains mac then device
      else markDuration c (countSeconds c device (asDict (get entries mac))) device) ::
      markDurations c entries devices

def updateDailyOnlineDurations (c : Clock) (devices : List Entries) (stored : Json) :
    List Entries × Json :=
  let state := openDaily c stored
  let present := deviceMap devices
  let closed := (asDict (get state "devices")).map fun (mac, entry) =>
    (mac, closeEntry c (Dict.keys present) mac entry)
  let entries := present.foldl (fun entries (mac, device) =>
    Dict.set entries mac (.dict (sampleEntry c device (asDict (get closed mac))))) closed
  (markDurations c closed devices,
    .dict (Dict.set (Dict.set (Dict.set state "date" (.str c.day)) "devices" (.dict entries))
      "updatedAt" (.str c.stamp)))

end

end LabProbe.Devices
