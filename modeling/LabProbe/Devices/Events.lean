import LabProbe.Devices.Durations
import LabProbe.Devices.Ipv6
import Mathlib.Data.List.Chain
import Mathlib.Data.List.Forall2

/-!
# Device events of a day

`normalize_device_events_for_daily` goes through the events of devices in the
order of their times and leaves out those that tell nothing new: a device that
comes online twice, goes offline twice, was never online, or has gone offline a
moment ago. An event of a device that went offline is given the duration since
it came online where it has none.
-/

namespace LabProbe.Devices

open Py Py.Json Hub

section
variable [Unicode]

-- ---------------------------------------------------------------------------
-- Events
-- ---------------------------------------------------------------------------

def eventTimestamp (e : Entries) : String :=
  ((((get e "createdAt").or (get e "time")).or (get e "offlineAt")).or
    ((get e "onlineSince").or (.str ""))).toStr

def eventEpoch (zone : Zone) (e : Entries) : Int := timeToEpoch zone (.str (eventTimestamp e))

def eventDeviceKey (e : Entries) : String :=
  let mac := normMac (get e "mac")
  if mac ≠ "" then "mac:" ++ mac else
  let title := ((get e "title").or (.str "")).toStr.toList
  let title := replaceAll " 离线".toList [] 0 (replaceAll " 上线".toList [] 0 title)
  let name := Unicode.lower (cleanSavedValue ((get e "name").or (.str (String.ofList title))))
  if name ≠ "" then "name:" ++ name else
  let ip := cleanSavedValue ((get e "ip").or (get e "lastIp"))
  if ip ≠ "" then "ip:" ++ ip else ""

omit [Unicode] in
/-- `int(e.get("id", 0))`, `none` where it raises. -/
def eventId (e : Entries) : Option Int :=
  match getD e "id" (.int 0) with
  | .str s => parseInt s
  | .null | .list _ | .dict _ => none
  | number => some (intOf 0 number)

def eventType (e : Entries) : String := (getD e "type" (.str "")).toStr

-- ---------------------------------------------------------------------------
-- The pass over the events
-- ---------------------------------------------------------------------------

structure DailyPass where
  state : List (String × String) := []
  onlineAt : List (String × Int) := []
  lastOffline : List (String × Int) := []
  kept : List Entries := []

omit [Unicode] in
def DailyPass.keep (s : DailyPass) (e : Entries) : DailyPass := { s with kept := s.kept ++ [e] }

omit [Unicode] in
/-- A device that came online. -/
def DailyPass.online (s : DailyPass) (key : String) (time : Int) (e : Entries) : DailyPass :=
  if Dict.get? s.state key = some "online" then s
  else
    { s with
      state := Dict.set s.state key "online"
      onlineAt := if time ≠ 0 then Dict.set s.onlineAt key time else s.onlineAt }.keep e

/-- The duration of an event of a device that went offline, and the event with
it. -/
def DailyPass.duration (s : DailyPass) (key : String) (time : Int) (e : Entries) : Int × Entries :=
  let seconds := durationTextToSeconds
    (prettyDurationText ((get e "onlineDurationText").or (.str "")).toStr)
  let since := (Dict.get? s.onlineAt key).getD 0
  if seconds = 0 ∧ since ≠ 0 ∧ time ≠ 0 ∧ since ≤ time then
    (time - since,
      Dict.set e "onlineDurationText" (.str (humanDurationPrecise (time - since))))
  else (seconds, e)

omit [Unicode] in
/-- The device has gone offline in the five minutes before. -/
def DailyPass.recent (s : DailyPass) (key : String) (time : Int) : Bool :=
  match Dict.get? s.lastOffline key with
  | some last => time ≠ 0 && 0 ≤ time - last && time - last ≤ 300
  | none => false

/-- A device that went offline. -/
def DailyPass.offline (s : DailyPass) (key : String) (time : Int) (e : Entries) : DailyPass :=
  let (seconds, e) := s.duration key time e
  if seconds ≤ 0 then s
  else if Dict.get? s.state key = some "offline" then s
  else if s.recent key time then s
  else
    { s with
      state := Dict.set s.state key "offline"
      lastOffline := if time ≠ 0 then Dict.set s.lastOffline key time else s.lastOffline
      onlineAt := Dict.erase s.onlineAt key }.keep e

/-- One turn of the loop. -/
def DailyPass.turn (zone : Zone) (s : DailyPass) (e : Entries) : DailyPass :=
  if eventType e ∉ ["device_online", "device_offline"] then s.keep e
  else if eventDeviceKey e = "" then s.keep e
  else if eventType e = "device_online" then s.online (eventDeviceKey e) (eventEpoch zone e) e
  else s.offline (eventDeviceKey e) (eventEpoch zone e) e

def eventOrder (zone : Zone) (e : Entries) : Int ×ₗ Int :=
  toLex (eventEpoch zone e, (eventId e).getD 0)

/-- `normalize_device_events_for_daily`, `none` where an `id` is not read. -/
def normalizeDeviceEventsForDaily (zone : Zone) (events : List Entries) : Option (List Entries) :=
  if events.all fun e => (eventId e).isSome then
    some ((events.insertionSort fun a b => eventOrder zone a ≤ eventOrder zone b).foldl
      (DailyPass.turn zone) {}).kept
  else none

-- ---------------------------------------------------------------------------
-- What an event says of a device
-- ---------------------------------------------------------------------------

omit [Unicode] in
inductive Rewritten (e : Entries) : Entries → Prop
  | same : Rewritten e e
  | duration (text : String) : Rewritten e (Dict.set e "onlineDurationText" (.str text))

def deviceWord (e : Entries) : Option String :=
  if eventType e = "device_online" then some "online"
  else if eventType e = "device_offline" then some "offline"
  else none

def wordsOf (key : String) (events : List Entries) : List String :=
  (events.filter fun e => eventDeviceKey e = key).filterMap deviceWord

variable {zone : Zone} {e e' : Entries} {key : String} {s : DailyPass}

omit [Unicode] in
theorem Rewritten.get (h : Rewritten e e') {field : String} (hne : "onlineDurationText" ≠ field) :
    get e' field = get e field := by
  cases h with
  | same => rfl
  | duration text => rw [get_set, if_neg hne]

theorem Rewritten.type_eq (h : Rewritten e e') : eventType e' = eventType e := by
  cases h with
  | same => rfl
  | duration text => simp [eventType, getD]

theorem Rewritten.epoch_eq (h : Rewritten e e') : eventEpoch zone e' = eventEpoch zone e := by
  simp (disch := decide) only [eventEpoch, eventTimestamp, h.get]

theorem Rewritten.key_eq (h : Rewritten e e') : eventDeviceKey e' = eventDeviceKey e := by
  simp (disch := decide) only [eventDeviceKey, h.get]

theorem wordsOf_append (key : String) (l : List Entries) (e : Entries) :
    wordsOf key (l ++ [e]) =
      wordsOf key l ++ if eventDeviceKey e = key then (deviceWord e).toList else [] := by
  unfold wordsOf
  rw [List.filter_append, List.filterMap_append]
  by_cases h : eventDeviceKey e = key
  · cases hword : deviceWord e <;> simp [h, hword]
  · simp [h]

-- ---------------------------------------------------------------------------
-- One turn
-- ---------------------------------------------------------------------------

/-- What a turn does: it leaves the event out, keeps one that says nothing of a
device, or keeps one that says something new. -/
inductive Turned (s : DailyPass) (e : Entries) : DailyPass → Prop
  | dropped : Turned s e s
  | plain : deviceWord e = none ∨ eventDeviceKey e = "" → Turned s e (s.keep e)
  | device {s' : DailyPass} {e' : Entries} {word : String} : Rewritten e e' →
    deviceWord e = some word → Dict.get? s.state (eventDeviceKey e) ≠ some word →
    s'.state = Dict.set s.state (eventDeviceKey e) word → s'.kept = s.kept ++ [e'] → Turned s e s'

theorem turned_online (h : eventType e = "device_online") (time : Int) :
    Turned s e (s.online (eventDeviceKey e) time e) := by
  have hword : deviceWord e = some "online" := by simp [deviceWord, h]
  unfold DailyPass.online
  split
  · exact .dropped
  · rename_i hnew
    exact .device .same hword hnew rfl rfl

theorem turned_offline (h : eventType e = "device_offline") (time : Int) :
    Turned s e (s.offline (eventDeviceKey e) time e) := by
  have hword : deviceWord e = some "offline" := by simp [deviceWord, h]
  have hrewritten : Rewritten e (s.duration (eventDeviceKey e) time e).2 := by
    unfold DailyPass.duration
    dsimp only
    split
    · exact .duration _
    · exact .same
  unfold DailyPass.offline
  dsimp only
  split
  · exact .dropped
  · split
    · exact .dropped
    · rename_i hnew
      split
      · exact .dropped
      · exact .device hrewritten hword hnew rfl rfl

theorem turned (zone : Zone) (s : DailyPass) (e : Entries) : Turned s e (s.turn zone e) := by
  unfold DailyPass.turn
  split
  · rename_i hother
    rw [List.mem_pair, not_or] at hother
    exact .plain (.inl (by simp [deviceWord, hother.1, hother.2]))
  · rename_i hdevice
    split
    · rename_i hkey
      exact .plain (.inr hkey)
    · split
      · rename_i honline
        exact turned_online honline _
      · rename_i honline
        have hoffline : eventType e = "device_offline" := by simpa [honline] using hdevice
        exact turned_offline hoffline _

-- ---------------------------------------------------------------------------
-- The whole pass
-- ---------------------------------------------------------------------------

/-- What was kept comes from the events so far, in their order, and the state
of a device is what was last kept of it. -/
structure DailyPass.Kept (s : DailyPass) (events : List Entries) : Prop where
  source : ∃ l, l.Sublist events ∧ List.Forall₂ Rewritten l s.kept
  alternates : ∀ key, key ≠ "" → (wordsOf key s.kept).IsChain (· ≠ ·)
  last : ∀ key, key ≠ "" → (wordsOf key s.kept).getLast? = Dict.get? s.state key

theorem kept_start : DailyPass.Kept {} [] where
  source := ⟨[], .slnil, .nil⟩
  alternates _ _ := .nil
  last _ _ := rfl

theorem Turned.kept {s' : DailyPass} {events : List Entries} (h : Turned s e s')
    (hs : s.Kept events) : s'.Kept (events ++ [e]) := by
  obtain ⟨l, hl, hkept⟩ := hs.source
  have happend : ∀ {e'}, Rewritten e e' → ∃ l', l'.Sublist (events ++ [e]) ∧
      List.Forall₂ Rewritten l' (s.kept ++ [e']) := fun hrewritten =>
    ⟨l ++ [e], hl.append (.refl [e]), List.rel_append hkept (.cons hrewritten .nil)⟩
  cases h with
  | dropped => exact ⟨⟨l, hl.trans (List.sublist_append_left _ _), hkept⟩, hs.alternates, hs.last⟩
  | plain hplain =>
    have hwords : ∀ key, key ≠ "" → wordsOf key (s.keep e).kept = wordsOf key s.kept := by
      rintro key hne
      rw [DailyPass.keep, wordsOf_append]
      rcases hplain with hnone | hempty
      · simp [hnone]
      · rw [hempty, if_neg hne.symm, List.append_nil]
    refine ⟨happend .same, fun key hne => ?_, fun key hne => ?_⟩
    · rw [hwords key hne]
      exact hs.alternates key hne
    · rw [hwords key hne]
      exact hs.last key hne
  | @device _ e' word hrewritten hword hnew hstate hkept' =>
    have hwords : ∀ key, wordsOf key s'.kept =
        wordsOf key s.kept ++ if eventDeviceKey e = key then [word] else [] := by
      intro key
      have hsame : deviceWord e' = some word := by
        rw [← hword, deviceWord, deviceWord, hrewritten.type_eq]
      rw [hkept', wordsOf_append, hrewritten.key_eq, hsame]
      rfl
    refine ⟨hkept' ▸ happend hrewritten, fun key hne => ?_, fun key hne => ?_⟩
    · rw [hwords key]
      split
      · rename_i hkey
        subst hkey
        refine List.isChain_append.mpr ⟨hs.alternates _ hne, .singleton word, ?_⟩
        rintro last hlast next hnext
        rw [Option.mem_def, hs.last _ hne] at hlast
        obtain rfl : word = next := by simpa using hnext
        rintro rfl
        exact hnew hlast
      · rw [List.append_nil]
        exact hs.alternates key hne
    · rw [hwords key, hstate, Dict.get?_set]
      split
      · simp
      · rw [List.append_nil]
        exact hs.last key hne

theorem kept_pass (zone : Zone) (events : List Entries) :
    (events.foldl (DailyPass.turn zone) {}).Kept events := by
  induction events using List.reverseRecOn with
  | nil => exact kept_start
  | append_singleton events e ih =>
    rw [List.foldl_append]
    exact (turned zone _ e).kept ih

-- ---------------------------------------------------------------------------
-- The normalized events
-- ---------------------------------------------------------------------------

/-- The events are in the order of their times, those of a device alternate,
and each is one of the given events but for its duration text. -/
structure Normalized (zone : Zone) (events out : List Entries) : Prop where
  ordered : out.Pairwise fun a b => eventEpoch zone a ≤ eventEpoch zone b
  alternates : ∀ key, key ≠ "" → (wordsOf key out).IsChain (· ≠ ·)
  kept : ∃ l, l.Subperm events ∧ List.Forall₂ Rewritten l out

theorem pairwise_rewritten {l out : List Entries} (h : List.Forall₂ Rewritten l out)
    (hl : l.Pairwise fun a b => eventEpoch zone a ≤ eventEpoch zone b) :
    out.Pairwise fun a b => eventEpoch zone a ≤ eventEpoch zone b := by
  have htimes : out.map (eventEpoch zone) = l.map (eventEpoch zone) := by
    induction h with
    | nil => rfl
    | cons hrewritten _ ih =>
      rw [List.map_cons, List.map_cons, hrewritten.epoch_eq, ih (List.pairwise_cons.mp hl).2]
  rw [← List.pairwise_map (R := (· ≤ ·)), htimes, List.pairwise_map]
  exact hl

end

attribute [local instance] Unicode.ascii

def phoneEvent (id : Int) (type time : String) : Entries :=
  [("id", .int id), ("type", .str type), ("mac", .str "02:00:00:00:00:01"), ("createdAt", .str time)]

/-- The second event tells nothing new, the last is given its duration. -/
example : (normalizeDeviceEventsForDaily (fun t => some t.seconds)
      [phoneEvent 3 "device_offline" "2026-01-01 08:10:00",
       phoneEvent 2 "device_online" "2026-01-01 08:05:00",
       phoneEvent 1 "device_online" "2026-01-01 08:00:00"]).map (List.map fun e =>
        ((get e "id").toStr, cleanSavedValue (get e "onlineDurationText"))) =
    some [("1", ""), ("3", "10分00秒")] := by
  decide +kernel

end LabProbe.Devices
