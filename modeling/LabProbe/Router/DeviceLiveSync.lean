import LabProbe.Devices.Ingest
import LabProbe.Lib.Run

/-!
# The live list of devices

`poll_once` of `router_device_live_sync_patch.py` asks the router for the devices
that are online and replaces the live snapshot. An empty list is only believed
when it is the second. One worker polls, so the polls come one after another.
Publishing and saving, which come after, are left out, as are the counters of
traffic and the IPv6 addresses of the rows.
-/

namespace LabProbe.Router.LiveSync

open Py Json Hub Devices Runs

def emptyConfirmations : Nat := 2

-- ---------------------------------------------------------------------------
-- The response
-- ---------------------------------------------------------------------------

def emptyList : Entries := [("list", .list []), ("total", .int 0)]

def hasList (d : Entries) : Bool := (Json.get d "list").list?.isSome

def unwrapRounds (loads : String → Except String Json) : Nat → Json → Except String Entries
  | 0, _ => .ok emptyList
  | rounds + 1, .str s =>
    if strip s = "" then .ok emptyList
    else match loads (strip s) with
      | .ok value => unwrapRounds loads rounds value
      | .error message => .error message
  | rounds + 1, .list xs =>
    match (xs.filterMap dict?).find? hasList with
    | some row => unwrapRounds loads rounds (.dict row)
    | none => match xs with
      | [value] => unwrapRounds loads rounds value
      | _ => .ok emptyList
  | rounds + 1, .dict d =>
    if hasList d then .ok d
    else if Json.get d "data" ≠ .null then unwrapRounds loads rounds (Json.get d "data")
    else if Json.get d "result" ≠ .null then unwrapRounds loads rounds (Json.get d "result")
    else .ok emptyList
  | _, _ => .ok emptyList

def unwrapUserList (loads : String → Except String Json) (value : Json) : Except String Entries :=
  unwrapRounds loads 8 value

/-- A response has a dictionary with a list, so many rounds deep. -/
inductive Carries (loads : String → Except String Json) : Nat → Json → Entries → Prop
  | here {rounds d} (h : hasList d = true) : Carries loads (rounds + 1) (.dict d) d
  | text {rounds s value d} (hs : strip s ≠ "") (hloads : loads (strip s) = .ok value)
      (h : Carries loads rounds value d) : Carries loads (rounds + 1) (.str s) d
  | row {rounds xs row d} (hrow : (xs.filterMap dict?).find? hasList = some row)
      (h : Carries loads rounds (.dict row) d) : Carries loads (rounds + 1) (.list xs) d
  | only {rounds value d} (hnone : ([value].filterMap dict?).find? hasList = none)
      (h : Carries loads rounds value d) : Carries loads (rounds + 1) (.list [value]) d
  | data {rounds e d} (hlist : hasList e = false) (hdata : Json.get e "data" ≠ .null)
      (h : Carries loads rounds (Json.get e "data") d) : Carries loads (rounds + 1) (.dict e) d
  | result {rounds e d} (hlist : hasList e = false) (hdata : Json.get e "data" = .null)
      (hresult : Json.get e "result" ≠ .null)
      (h : Carries loads rounds (Json.get e "result") d) : Carries loads (rounds + 1) (.dict e) d

theorem Carries.unwrap {loads : String → Except String Json} {rounds : Nat} {value : Json}
    {d : Entries} (h : Carries loads rounds value d) : unwrapRounds loads rounds value = .ok d := by
  induction h with
  | here h => rw [unwrapRounds, if_pos h]
  | text hs hloads _ ih =>
    rw [unwrapRounds, if_neg hs, hloads]
    exact ih
  | row hrow _ ih =>
    unfold unwrapRounds
    simp only [hrow]
    exact ih
  | only hnone _ ih =>
    rw [unwrapRounds, hnone]
    exact ih
  | data hlist hdata _ ih => rw [unwrapRounds, hlist, if_neg Bool.false_ne_true, if_pos hdata, ih]
  | result hlist hdata hresult _ ih =>
    rw [unwrapRounds, hlist, if_neg Bool.false_ne_true, if_neg (not_not_intro hdata),
      if_pos hresult, ih]

-- ---------------------------------------------------------------------------
-- Polling
-- ---------------------------------------------------------------------------

structure Frame where
  confirmedEmpty : Bool
  sampleEpochMs : Int
  updatedAt : String
  onlineDeviceCount : Nat
  total : Int
  devices : List Entries

/-- One poll: what the router answers, and what the poll reads besides. A fault is
what the archive or the addresses of the hub raise. -/
structure Poll where
  reply : Except String Json
  clock : Clock
  nowMs : Int
  archive : Json := .dict []
  fault : Option String := none

/-- `RouterDeviceLiveSync`, with the polls so far on the side. -/
structure Service where
  latest : Option Frame := none
  emptyStreak : Nat := 0
  lastError : String := ""
  polls : List Poll := []

def Service.devices (s : Service) : List Entries := (s.latest.map (·.devices)).getD []

inductive PollResult where
  | accepted (frame : Frame)
  | deferredEmpty (emptyStreak : Nat)
  | failed (error : String)

section
variable [Unicode]

def liveRow (p : Poll) (previous : List (String × Entries)) (previousEpoch : Int)
    (device : Entries) : Entries :=
  let row := hydrateDevice p.clock (asDict p.archive) device
  let raw := asDict (Json.get row "raw")
  let old := (Dict.get? previous (normMac (Json.get row "mac"))).getD []
  let routerSeconds := integer (Json.get row "todayOnlineDurationSec")
  let oldSeconds := if (Json.get old "todayOnlineDate").eq (.str p.clock.day) then
    integer (Json.get old "todayOnlineDurationSec") else 0
  let observedDelta := if previousEpoch = 0 then 0 else
    max 0 (min 30 (p.clock.epoch - previousEpoch))
  let observedSeconds := if old.isEmpty then 0 else oldSeconds + observedDelta
  let seconds := max routerSeconds observedSeconds
  Dict.update row
    [("online", .bool true), ("lastSeenAt", .str p.clock.stamp), ("offlineAt", .null),
     ("uploadBps", .int (integer (Json.get raw "flowUp"))),
     ("downloadBps", .int (integer (Json.get raw "flowDown"))),
     ("connectionCount", .int (integer (Json.get raw "flow_cnt"))),
     ("todayOnlineDurationSec", .int seconds),
     ("todayOnlineDurationText", .str (humanDuration seconds)),
     ("todayOnlineDate", .str p.clock.day)]

def hydrate (r : Reading) (s : Service) (p : Poll) (payload : Entries) :
    Except String (List Entries × Int) :=
  match parseDevices r p.clock (.dict payload), p.fault with
  | .error message, _ => .error message
  | .ok _, some message => .error message
  | .ok (online, total), none =>
    let previousEpoch := ((s.latest.map (·.sampleEpochMs)).getD 0) / 1000
    let rows := online.map (liveRow p (deviceMap s.devices) previousEpoch)
    .ok (rows.insertionSort fun a b => normMac (Json.get a "mac") ≤ normMac (Json.get b "mac"), total)

def readRows (r : Reading) (s : Service) (p : Poll) : Except String (List Entries × Int) := do
  let raw ← p.reply
  let payload ← unwrapUserList r.loads raw
  hydrate r s p payload

omit [Unicode] in
def frameOf (p : Poll) (rows : List Entries) (total : Int) (confirmedEmpty : Bool) : Frame where
  confirmedEmpty := confirmedEmpty
  sampleEpochMs := p.nowMs
  updatedAt := p.clock.stamp
  onlineDeviceCount := rows.length
  total := total
  devices := rows

def pollOnce (r : Reading) (s : Service) (p : Poll) : PollResult × Service :=
  match readRows r s p with
  | .error message => (.failed message, { s with lastError := message })
  | .ok (rows, total) =>
    if rows.isEmpty && !s.devices.isEmpty then
      let emptyStreak := s.emptyStreak + 1
      if emptyStreak < emptyConfirmations then
        (.deferredEmpty emptyStreak, { s with emptyStreak })
      else
        let frame := frameOf p rows total true
        (.accepted frame, { s with emptyStreak, latest := some frame, lastError := "" })
    else
      let frame := frameOf p rows total false
      (.accepted frame, { s with emptyStreak := 0, latest := some frame, lastError := "" })

def step (r : Reading) (s : Service) (p : Poll) : Service :=
  { (pollOnce r s p).2 with polls := s.polls ++ [p] }

-- ---------------------------------------------------------------------------
-- Confirmed empties
-- ---------------------------------------------------------------------------

/-- The response of a poll has a list, and the list has no device. -/
def RealEmpty (r : Reading) (p : Poll) : Prop :=
  ∃ raw rounds d total, p.reply = .ok raw ∧ Carries r.loads rounds raw d ∧
    parseDevices r p.clock (.dict d) = .ok ([], total)

def LastEmpty (r : Reading) (polls : List Poll) (n : Nat) : Prop :=
  ∃ earlier confirmed, polls = earlier ++ confirmed ∧ confirmed.length = n ∧
    ∀ p ∈ confirmed, RealEmpty r p

/-- The snapshot is cleared by consecutive lists without a device, and nothing
else counts. -/
structure Clears (r : Reading) (s : Service) (p : Poll) : Prop where
  confirmed : s.devices ≠ [] → (step r s p).devices = [] →
    ∃ n, emptyConfirmations ≤ n ∧ LastEmpty r (step r s p).polls n
  counted : s.emptyStreak < (step r s p).emptyStreak → RealEmpty r p

/-- While there is something to clear, a poll that raises comes after none that
counts, and the others have a list within eight rounds. -/
def Sound (r : Reading) (s : Service) (p : Poll) : Prop :=
  s.devices ≠ [] →
    ((readRows r s p).isOk = false → s.emptyStreak = 0) ∧
    ((readRows r s p).isOk = true → ∃ raw d, p.reply = .ok raw ∧ Carries r.loads 8 raw d)

variable {r : Reading} {s : Service} {p : Poll} {polls : List Poll} {n : Nat}

theorem LastEmpty.append (h : LastEmpty r polls n) (hp : RealEmpty r p) :
    LastEmpty r (polls ++ [p]) (n + 1) := by
  obtain ⟨earlier, confirmed, rfl, rfl, hconfirmed⟩ := h
  refine ⟨earlier, confirmed ++ [p], by simp, by simp, ?_⟩
  rw [List.forall_mem_append]
  exact ⟨hconfirmed, by simpa using hp⟩

theorem lastEmpty_zero (r : Reading) (polls : List Poll) : LastEmpty r polls 0 :=
  ⟨polls, [], by simp, rfl, by simp⟩

theorem liveRows_length {payload : Entries} {rows : List Entries} {total : Int}
    (h : hydrate r s p payload = .ok (rows, total)) :
    ∃ online, parseDevices r p.clock (.dict payload) = .ok (online, total) ∧
      rows.length = online.length := by
  unfold hydrate at h
  split at h
  · cases h
  · cases h
  · rename_i online total' hparse hfault
    cases h
    exact ⟨online, hparse, by simp⟩

theorem realEmpty_of_carries {raw : Json} {d : Entries} {rows : List Entries} {total : Int}
    (hread : readRows r s p = .ok (rows, total)) (hreply : p.reply = .ok raw)
    (hcarries : Carries r.loads 8 raw d) (hrows : rows = []) : RealEmpty r p := by
  have hhydrate : hydrate r s p d = .ok (rows, total) := by
    simpa [readRows, hreply, unwrapUserList, hcarries.unwrap, bind, Except.bind] using hread
  obtain ⟨online, hparse, hlength⟩ := liveRows_length hhydrate
  obtain rfl : online = [] := by simpa [hrows] using hlength.symm
  exact ⟨raw, 8, d, total, hreply, hcarries, hparse⟩

theorem step_cases (r : Reading) (s : Service) (p : Poll) :
    (∃ message, readRows r s p = .error message ∧ (step r s p).devices = s.devices ∧
      (step r s p).emptyStreak = s.emptyStreak) ∨
    (∃ total, readRows r s p = .ok ([], total) ∧ s.devices ≠ [] ∧
      (step r s p).emptyStreak = s.emptyStreak + 1 ∧
      (step r s p).devices =
        if s.emptyStreak + 1 < emptyConfirmations then s.devices else []) ∨
    (∃ rows total, readRows r s p = .ok (rows, total) ∧ (rows = [] → s.devices = []) ∧
      (step r s p).emptyStreak = 0 ∧ (step r s p).devices = rows) := by
  unfold step pollOnce
  cases hread : readRows r s p with
  | error message => exact .inl ⟨message, rfl, rfl, rfl⟩
  | ok read =>
    obtain ⟨rows, total⟩ := read
    by_cases hempty : rows.isEmpty && !s.devices.isEmpty
    · obtain ⟨hrows, hdevices⟩ := Bool.and_eq_true _ _ ▸ hempty
      rw [List.isEmpty_iff] at hrows
      subst hrows
      refine .inr (.inl ⟨total, rfl, by simpa using hdevices, ?_, ?_⟩)
      · simp only [hempty, if_true]
        split <;> rfl
      · simp only [hempty, if_true]
        split <;> rfl
    · refine .inr (.inr ⟨rows, total, rfl, ?_, ?_, ?_⟩)
      · rintro rfl
        simpa using hempty
      · simp only [hempty]
        rfl
      · simp only [hempty]
        rfl

/-- While there is a snapshot, the streak is of the last polls. -/
def Counted (r : Reading) (s : Service) : Prop :=
  s.devices ≠ [] → LastEmpty r s.polls s.emptyStreak

theorem counted_step (h : Counted r s) (hsound : Sound r s p) :
    Counted r (step r s p) ∧ Clears r s p := by
  obtain ⟨message, hread, hdevices, hstreak⟩ | ⟨total, hread, hfull, hstreak, hdevices⟩ |
    ⟨rows, total, hread, hrows, hstreak, hdevices⟩ := step_cases r s p
  · refine ⟨?_, ?_, ?_⟩
    · intro hnonempty
      rw [hdevices] at hnonempty
      have hzero : s.emptyStreak = 0 := (hsound hnonempty).1 (by rw [hread]; rfl)
      rw [hstreak, hzero]
      exact lastEmpty_zero r _
    · intro hnonempty hcleared
      exact absurd (hdevices ▸ hcleared) hnonempty
    · intro hlt
      exact absurd hstreak hlt.ne'
  · obtain ⟨raw, d, hreply, hcarries⟩ := (hsound hfull).2 (by rw [hread]; rfl)
    have hreal : RealEmpty r p := realEmpty_of_carries hread hreply hcarries rfl
    have hlast : LastEmpty r (step r s p).polls (s.emptyStreak + 1) := (h hfull).append hreal
    refine ⟨fun _ => hstreak ▸ hlast, fun _ hcleared => ⟨_, ?_, hlast⟩, fun _ => hreal⟩
    rw [hdevices] at hcleared
    split at hcleared
    · exact absurd hcleared hfull
    · omega
  · refine ⟨fun _ => hstreak ▸ lastEmpty_zero r _, fun hnonempty hcleared => ?_, fun hlt => ?_⟩
    · exact absurd (hrows (hdevices ▸ hcleared)) hnonempty
    · omega

/-- Where responses have a list and no poll raises while one counts, the snapshot
is only cleared by consecutive lists without a device. -/
theorem snapshot_cleared_by_empties (r : Reading) (polls : List Poll)
    (h : Along (step r) (Sound r) {} polls) : Along (step r) (Clears r) {} polls :=
  h.mono (I := Counted r) (fun hne => absurd rfl hne) (fun _ _ hI hS => (counted_step hI hS).1)
    fun _ _ hI hS => (counted_step hI hS).2

end

section
local instance : Unicode := .ascii

def liveReading : Reading := ⟨fun _ => .error "no text", fun _ => none⟩

theorem poll_valid : isDateTime 2026 1 1 8 0 0 = true := rfl

def pollOf (reply : Json) : Poll where
  reply := .ok reply
  clock := ⟨⟨2026, 1, 1, 8, 0, 0, poll_valid⟩, 1767254400⟩
  nowMs := 1767254400000

def listPoll (items : List Json) : Poll := pollOf (.dict [("list", .list items)])

def busyPoll : Poll := pollOf (.dict [("error", .str "busy")])

def phone : Json := .dict [("mac", .str "02:00:00:00:00:01")]

/-- A phone, and then twice nobody. -/
theorem snapshot_cleared_by_empties_phone :
    Along (step liveReading) (Clears liveReading) {}
      [listPoll [phone], listPoll [], listPoll []] := by
  have hsound : ∀ s items, (readRows liveReading s (listPoll items)).isOk = true →
      Sound liveReading s (listPoll items) := fun s items hok _ =>
    ⟨fun hfailed => by simp [hok] at hfailed, fun _ => ⟨_, _, rfl, .here rfl⟩⟩
  exact snapshot_cleared_by_empties liveReading _
    ⟨hsound _ _ (by decide +kernel), hsound _ _ (by decide +kernel), hsound _ _ (by decide +kernel),
      trivial⟩

/-- Two responses without a list clear the snapshot. -/
theorem snapshot_cleared_by_errors :
    (run (step liveReading) {} [listPoll [phone]]).devices.length = 1 ∧
      (run (step liveReading) {} [listPoll [phone], busyPoll, busyPoll]).devices = [] ∧
      ¬RealEmpty liveReading busyPoll := by
  refine ⟨by decide +kernel, by decide +kernel, ?_⟩
  rintro ⟨raw, rounds, d, total, hreply, hcarries, -⟩
  obtain rfl : Json.dict [("error", .str "busy")] = raw := Except.ok.inj hreply
  cases hcarries with
  | here h => exact absurd h (by decide)
  | data _ hdata => exact hdata (by decide)
  | result _ _ hresult => exact hresult (by decide)

end

end LabProbe.Router.LiveSync
