import LabProbe.Hub.Values
import LabProbe.Lib.Delta
import LabProbe.Lib.Run

/-!
# Realtime rows of the devices

`RouterLiteRealtimeService.accept_push` and `devices_payload`. A push brings
the rows of all devices; the event sent for it has the rows that differ from
those before. An App takes the payload once and applies the events that
follow.
-/

namespace LabProbe.Realtime

open Py Py.Json Hub Runs

structure DeviceRow where
  mac : String
  uploadBps : Int
  downloadBps : Int
  connectionCount : Int
  deriving DecidableEq

structure Sample where
  devices : List DeviceRow := []
  epochMs : Int := 0
  sequence : Nat := 0
  source : String := ""
  agentVersion : String := ""

structure DevicesEvent where
  sampleEpochMs : Int
  sequence : Nat
  source : String
  onlineDeviceCount : Nat
  devices : List DeviceRow

structure DevicesPayload where
  sampleEpochMs : Int
  serverEpochMs : Int
  sampleAgeMs : Int
  sequence : Nat
  source : String
  agentVersion : String
  stale : Bool
  onlineDeviceCount : Nat
  devices : List DeviceRow
  error : String

/-- A push as it arrives: the clock, whether an App asks for rows, the body. -/
structure Push where
  nowMs : Int
  devicesActive : Bool
  payload : Json

section
variable [Unicode]

def integer (v : Json) (default : Int) : Int :=
  match parseFloat (strip v.toStr) with
  | some q => max 0 (truncate q)
  | none => default

/-- `_integer` raises: `int` of an infinity is no `ValueError`. -/
@[irreducible]
def overflows (v : Json) : Bool := isInfinity (strip v.toStr)

def sampleEpochMs (nowMs : Int) (value : Json) : Int :=
  let sampleMs := integer value nowMs
  if sampleMs ≤ 0 ∨ nowMs + 10000 < sampleMs then nowMs else sampleMs

omit [Unicode] in
def cleanSource (value : Json) : String :=
  let source := text value
  if source = "" then "relay_local_dev_sta" else takeChars 48 source

def deviceRow (item : Entries) : DeviceRow where
  mac := normMac (get item "mac")
  uploadBps := integer (get item "uploadBps") 0
  downloadBps := integer (get item "downloadBps") 0
  connectionCount := integer (get item "connectionCount") 0

/-- `_device_rows`, of a list. -/
def deviceRows (items : List Json) : List DeviceRow :=
  (((items.filterMap dict?).map deviceRow).filter fun row => row.mac != "").insertionSort
    fun a b => a.mac ≤ b.mac

/-- The items a push supplies, where it supplies any. -/
def Push.items (push : Push) : Option (List Json) :=
  if push.devicesActive then push.payload.dict?.bind fun d => (get d "devices").list? else none

/-- Reading a number of the push raises, before anything is kept of it. -/
def Push.raises (push : Push) : Bool :=
  overflows (get (asDict push.payload) "sampleEpochMs") ||
    ((push.items.getD []).filterMap dict?).any fun item => normMac (get item "mac") != "" &&
      ["uploadBps", "downloadBps", "connectionCount"].any fun key => overflows (get item key)

/-- The rows of a push that does not raise, where it supplies any. -/
def Push.rows (push : Push) : Option (List DeviceRow) :=
  if push.raises then none else push.items.map deviceRows

/-- `accept_push`: the sample, and the event. -/
def Sample.acceptPush (s : Sample) (push : Push) : Sample × Option DevicesEvent :=
  match push.rows with
  | none => (s, none)
  | some devices =>
    let body := asDict push.payload
    let epochMs := sampleEpochMs push.nowMs (get body "sampleEpochMs")
    let changed := devices ≠ s.devices ∨ epochMs ≠ s.epochMs
    let sample : Sample :=
      { devices := devices
        epochMs := epochMs
        sequence := if changed then s.sequence + 1 else s.sequence
        source := cleanSource (get body "source")
        agentVersion := takeChars 32 (text (get body "agentVersion")) }
    (sample, some
      { sampleEpochMs := epochMs
        sequence := sample.sequence
        source := sample.source
        onlineDeviceCount := devices.length
        devices := Deltas.delta DeviceRow.mac s.devices devices })

def Sample.devicesPayload (s : Sample) (nowMs : Int) : DevicesPayload :=
  let ageMs := if s.epochMs = 0 then 0 else max 0 (nowMs - s.epochMs)
  { sampleEpochMs := s.epochMs
    serverEpochMs := nowMs
    sampleAgeMs := ageMs
    sequence := s.sequence
    source := if s.source = "" then "waiting_relay_local" else s.source
    agentVersion := s.agentVersion
    stale := s.epochMs = 0 ∨ 4000 < ageMs
    onlineDeviceCount := s.devices.length
    devices := s.devices
    error := if s.epochMs = 0 then "等待路由器本地终端采样" else "" }

end

-- ---------------------------------------------------------------------------
-- An App that follows
-- ---------------------------------------------------------------------------

/-- What an App holds: a row for each address, and the count. -/
structure Follower where
  rows : List (String × DeviceRow)
  onlineDeviceCount : Nat

def DevicesPayload.take (payload : DevicesPayload) : Follower where
  rows := Deltas.table DeviceRow.mac payload.devices
  onlineDeviceCount := payload.onlineDeviceCount

def Follower.apply (f : Follower) (event : DevicesEvent) : Follower where
  rows := Deltas.patch DeviceRow.mac f.rows event.devices
  onlineDeviceCount := event.onlineDeviceCount

/-- The sample of the Hub and an App that follows it. -/
structure Feed where
  sample : Sample
  follower : Follower

/-- The feed of an App that takes the payload now. -/
def Feed.start (s : Sample) (nowMs : Int) : Feed := ⟨s, (s.devicesPayload nowMs).take⟩

/-- The App holds exactly the rows and the count of the payload. -/
def Feed.Exact (f : Feed) : Prop := ∀ nowMs,
  (f.follower.rows.map Prod.snd).Perm (f.sample.devicesPayload nowMs).devices ∧
    f.follower.onlineDeviceCount = (f.sample.devicesPayload nowMs).onlineDeviceCount

section
variable [Unicode]

def Feed.step (f : Feed) (push : Push) : Feed :=
  let (sample, event) := f.sample.acceptPush push
  ⟨sample, match event with
    | some event => f.follower.apply event
    | none => f.follower⟩

/-- After the event of a push, the App holds what the payload has. -/
def Feed.Replays (f : Feed) (push : Push) : Prop :=
  (f.sample.acceptPush push).2.isSome → (f.step push).Exact

/-- The rows of a push repeat no address, and leave out none that was there. -/
def Feed.KeepsDevices (f : Feed) (push : Push) : Prop := ∀ rows ∈ push.rows,
  (rows.map DeviceRow.mac).Nodup ∧ ∀ row ∈ f.sample.devices, row.mac ∈ rows.map DeviceRow.mac

instance (f : Feed) (push : Push) : Decidable (f.KeepsDevices push) :=
  inferInstanceAs (Decidable (∀ rows ∈ push.rows, _ ∧ _))

-- ---------------------------------------------------------------------------
-- One push
-- ---------------------------------------------------------------------------

variable {f : Feed} {push : Push}

omit [Unicode] in
/-- The App holds the table of the rows of the Hub. -/
structure Feed.Follows (f : Feed) : Prop where
  keys : (Dict.keys f.follower.rows).Nodup
  rows : ∀ mac, Dict.get? f.follower.rows mac =
    Dict.get? (Deltas.table DeviceRow.mac f.sample.devices) mac

omit [Unicode] in
theorem start_follows (s : Sample) (nowMs : Int) : (Feed.start s nowMs).Follows where
  keys := Dict.nodup_keys_ofEntries _
  rows _ := rfl

theorem step_none (h : push.rows = none) : f.step push = f := by
  simp [Feed.step, Sample.acceptPush, h]

theorem step_some {rows : List DeviceRow} (h : push.rows = some rows) :
    (f.step push).sample.devices = rows ∧
      (f.step push).follower.rows = Deltas.patch DeviceRow.mac f.follower.rows
        (Deltas.delta DeviceRow.mac f.sample.devices rows) ∧
      (f.step push).follower.onlineDeviceCount = rows.length := by
  simp [Feed.step, Sample.acceptPush, h, Follower.apply]

theorem Feed.Follows.step (h : f.Follows) (hk : f.KeepsDevices push) : (f.step push).Follows := by
  cases hrows : push.rows with
  | none =>
    rw [step_none hrows]
    exact h
  | some rows =>
    obtain ⟨hdevices, hfollower, -⟩ := step_some (f := f) hrows
    obtain ⟨hn, hc⟩ := hk rows hrows
    refine ⟨?_, fun mac => ?_⟩
    · rw [hfollower]
      exact Deltas.nodup_patch h.keys _
    · rw [hfollower, hdevices]
      exact Deltas.get?_patch_delta h.rows hn hc mac

theorem Feed.Follows.replays_iff (h : f.Follows) : f.Replays push ↔ f.KeepsDevices push := by
  unfold Feed.Replays Feed.KeepsDevices
  cases hrows : push.rows with
  | none => simp [Sample.acceptPush, hrows]
  | some rows =>
    obtain ⟨hdevices, hfollower, hcount⟩ := step_some (f := f) hrows
    have hevent : (f.sample.acceptPush push).2.isSome = true := by
      simp [Sample.acceptPush, hrows]
    simp only [hevent, true_imp_iff, Option.mem_some, forall_eq']
    unfold Feed.Exact Sample.devicesPayload
    simp only [hdevices, hfollower, hcount, and_true]
    rw [← Deltas.patch_delta_perm_iff h.keys h.rows]
    exact ⟨fun hall => hall 0, fun hperm _ => hperm⟩

/-- From every sample that is reached, an App that takes the payload and
applies the events holds the rows of the payload after each, exactly when no
push repeats an address or leaves out one of the rows before it. -/
theorem deltas_replay_iff (before after : List Push) (nowMs : Int) :
    Along Feed.step Feed.Replays
        (Feed.start (run (fun s push => (s.acceptPush push).1) {} before) nowMs) after ↔
      Along Feed.step Feed.KeepsDevices
        (Feed.start (run (fun s push => (s.acceptPush push).1) {} before) nowMs) after :=
  along_iff (start_follows _ nowMs) (fun _ _ h hk => h.step hk) fun _ _ h => h.replays_iff

end

section
local instance realtimeUnicode : Unicode := .ascii

/-- A push with the rows of these addresses. -/
def pushOf (nowMs : Int) (macs : List String) : Push where
  nowMs := nowMs
  devicesActive := true
  payload := .dict [("devices", .list (macs.map fun mac => .dict [("mac", .str mac)]))]

/-- A phone leaves the sample, and the App keeps its row. -/
theorem departure_missed : ¬Along Feed.step Feed.Replays
    (Feed.start (run (fun s push => (s.acceptPush push).1) {} [pushOf 1000 ["phone", "tv"]]) 1500)
    [pushOf 2000 ["tv"]] := by
  rintro ⟨h, -⟩
  have hexact := (h (by decide +kernel) 2500).1.length_eq
  exact absurd hexact (by decide +kernel)

end

end LabProbe.Realtime
