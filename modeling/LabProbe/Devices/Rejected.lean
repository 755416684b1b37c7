import LabProbe.Devices.Ingest

/-!
# What a rejected snapshot leaves

The durations of the day are counted and saved before the list of devices is
looked at. A snapshot that is put off changes no other document, and this one
stays only where the absence of every device is written down already.
-/

namespace LabProbe.Devices

open Py Py.Json Hub

section
variable [Unicode]

-- ---------------------------------------------------------------------------
-- The durations of an empty list
-- ---------------------------------------------------------------------------

omit [Unicode] in
def ClosedEntry (c : Clock) (value : Json) : Prop :=
  ∃ entry, value = .dict entry ∧ Dict.get? entry "online" = some (.bool false) ∧
    Dict.get? entry "lastSampleEpoch" = some (.int c.epoch)

omit [Unicode] in
/-- The document says so of every device. -/
def Closed (c : Clock) (daily : Json) : Prop :=
  ∃ state entries, daily = .dict state ∧ Dict.get? state "date" = some (.str c.day) ∧
    Dict.get? state "devices" = some (.dict entries) ∧
    Dict.get? state "updatedAt" = some (.str c.stamp) ∧
    ∀ entry ∈ entries, ClosedEntry c entry.2

omit [Unicode] in
theorem set_set_eq_self_iff {d : Entries} {key key' : String} {v w : Json} (hne : key ≠ key') :
    Dict.set (Dict.set d key v) key' w = d ↔ Dict.get? d key = some v ∧ Dict.get? d key' = some w := by
  constructor
  · intro h
    have hfirst := Dict.get?_set (Dict.set d key v) key' w key
    have hsecond := Dict.get?_set (Dict.set d key v) key' w key'
    rw [h, if_neg hne.symm, Dict.get?_set, if_pos rfl] at hfirst
    rw [h, if_pos rfl] at hsecond
    exact ⟨hfirst, hsecond⟩
  · rintro ⟨hfirst, hsecond⟩
    rw [Dict.set_eq_self hfirst, Dict.set_eq_self hsecond]

omit [Unicode] in
theorem closeEntry_eq_self_iff {c : Clock} {mac : String} {value : Json} :
    closeEntry c [] mac value = value ↔ ClosedEntry c value := by
  cases value with
  | dict entry =>
    have hsets := set_set_eq_self_iff (d := entry) (v := .bool false) (w := .int c.epoch)
      (show "online" ≠ "lastSampleEpoch" by decide)
    simp [closeEntry, ClosedEntry, hsets]
  | _ => simp [closeEntry, ClosedEntry]

omit [Unicode] in
theorem eq_of_eq_str {value : Json} {s : String} (h : value.eq (.str s) = true) : value = .str s := by
  cases value <;> simp_all [Json.eq_apply, num?]

omit [Unicode] in
theorem map_closeEntry_eq_self_iff {c : Clock} {entries : Entries} :
    (entries.map fun entry => (entry.1, closeEntry c [] entry.1 entry.2)) = entries ↔
      ∀ entry ∈ entries, ClosedEntry c entry.2 := by
  have hmap := List.map_inj_left (l := entries) (g := id)
    (f := fun entry : String × Json => (entry.1, closeEntry c [] entry.1 entry.2))
  rw [List.map_id] at hmap
  rw [hmap]
  exact forall₂_congr fun entry _ => Prod.ext_iff.trans
    ((and_iff_right rfl).trans closeEntry_eq_self_iff)

omit [Unicode] in
theorem openDaily_cases (c : Clock) (daily : Json) :
    (∃ state, daily = .dict state ∧ Dict.get? state "date" = some (.str c.day) ∧
      openDaily c daily = state) ∨
    ((∀ state, daily = .dict state → Dict.get? state "date" ≠ some (.str c.day)) ∧
      Dict.get? (openDaily c daily) "date" = some (.str c.day)) := by
  cases daily with
  | dict state =>
    cases hdate : (get state "date").eq (.str c.day) with
    | false =>
      refine .inr ⟨?_, by rw [openDaily, hdate]; rfl⟩
      rintro state' ⟨⟩ hget
      rw [Json.get, hget, Option.getD_some, str_eq_str.mpr rfl] at hdate
      cases hdate
    | true =>
      have hget : Dict.get? state "date" = some (.str c.day) := by
        have hvalue := eq_of_eq_str hdate
        cases hfield : Dict.get? state "date" <;> simp_all [Json.get]
      exact .inl ⟨state, rfl, hget, by rw [openDaily, hdate, if_pos rfl]⟩
  | _ => exact .inr ⟨fun _ h => (by cases h), rfl⟩

theorem updateDaily_nil_iff {c : Clock} {daily : Json} :
    (updateDailyOnlineDurations c [] daily).2 = daily ↔ Closed c daily := by
  have hdate : Dict.get? (openDaily c daily) "date" = some (.str c.day) := by
    obtain ⟨state, -, hdate, hopen⟩ | ⟨-, hdate⟩ := openDaily_cases c daily
    · rw [hopen, hdate]
    · exact hdate
  have hdocument : (updateDailyOnlineDurations c [] daily).2 =
      .dict (Dict.set (Dict.set (openDaily c daily) "devices"
        (.dict ((asDict (get (openDaily c daily) "devices")).map fun entry =>
          (entry.1, closeEntry c [] entry.1 entry.2)))) "updatedAt" (.str c.stamp)) := by
    rw [updateDailyOnlineDurations]
    dsimp only
    rw [Dict.set_eq_self hdate]
    rfl
  rw [hdocument]
  obtain ⟨state, rfl, -, hopen⟩ | ⟨hother, -⟩ := openDaily_cases c daily
  · rw [hopen] at hdate ⊢
    rw [Json.dict.injEq, set_set_eq_self_iff (by decide)]
    constructor
    · rintro ⟨hdevices, hupdated⟩
      have hclosed : asDict (get state "devices") = (asDict (get state "devices")).map fun entry =>
          (entry.1, closeEntry c [] entry.1 entry.2) :=
        congrArg (fun v => asDict (v.getD .null)) hdevices
      rw [← hclosed] at hdevices
      exact ⟨state, _, rfl, hdate, hdevices, hupdated,
        map_closeEntry_eq_self_iff.mp hclosed.symm⟩
    · rintro ⟨_, entries, ⟨⟩, -, hdevices, hupdated, hall⟩
      refine ⟨?_, hupdated⟩
      rw [Json.get, hdevices, Option.getD_some, asDict_dict, map_closeEntry_eq_self_iff.mpr hall]
  · constructor
    · intro hsame
      refine absurd ?_ (hother _ hsame.symm)
      rw [Dict.get?_set, if_neg (by decide), Dict.get?_set, if_neg (by decide), hdate]
    · rintro ⟨state, _, hstate, hstored, -⟩
      exact absurd hstored (hother state hstate)

-- ---------------------------------------------------------------------------
-- Rejected snapshots
-- ---------------------------------------------------------------------------

/-- The durations are counted before the snapshot is looked at: it comes
from the router and can be read. -/
def countsDurations (r : Reading) (c : Clock) : Snapshot → Bool
  | .payload payload => (parseDevices r c payload).isOk
  | .prepared _ _ => false

theorem updateDaily_eq_nil {c : Clock} {devices : List Entries} {daily : Json}
    (h : (updateDailyOnlineDurations c devices daily).1 = []) : devices = [] := by
  cases devices with
  | nil => rfl
  | cons => cases h

theorem documents_of_rejected {r : Reading} {c : Clock} {snapshot : Snapshot}
    {s s' : DurableDeviceHistory} {outcome : Outcome} (h : ingest r c snapshot s = (outcome, s'))
    (hrejected : outcome.isAccepted = false) :
    s'.documents = if countsDurations r c snapshot then
      { s.documents with daily := (updateDailyOnlineDurations c [] s.documents.daily).2 }
    else s.documents := by
  obtain ⟨message, hcollect, -, hdocuments⟩ | ⟨total, daily, hcollect, -, hdocuments⟩ |
    ⟨online, total, daily, -, rfl, -⟩ := ingest_cases h
  · rw [hdocuments]
    cases snapshot with
    | payload payload =>
      cases hparse : parseDevices r c payload with
      | error => rw [countsDurations, hparse]; rfl
      | ok read => simp [collect, hparse, bind, Except.bind] at hcollect
    | prepared rows total => cases hcollect
  · rw [hdocuments]
    cases snapshot with
    | payload payload =>
      obtain ⟨⟨devices, total'⟩, hparse, hrest⟩ := Check.bind_eq_ok.mp hcollect
      obtain ⟨honline, -, hdaily⟩ : (updateDailyOnlineDurations c devices s.documents.daily).1 = [] ∧
          total' = total ∧ (updateDailyOnlineDurations c devices s.documents.daily).2 = daily := by
        simpa using hrest
      rw [countsDurations, hparse, ← hdaily, updateDaily_eq_nil honline]
      rfl
    | prepared rows total' =>
      obtain ⟨-, -, rfl⟩ : rows.filterMap dict? = [] ∧ _ ∧ s.documents.daily = daily := by
        simpa [collect] using hcollect
      rfl
  · cases hrejected

/-- A rejected snapshot leaves every document just when its durations were
not counted or said already that no device is online. -/
theorem rejected_keeps_iff {r : Reading} {c : Clock} {snapshot : Snapshot}
    {s s' : DurableDeviceHistory} {outcome : Outcome} (h : ingest r c snapshot s = (outcome, s'))
    (hrejected : outcome.isAccepted = false) :
    s'.documents = s.documents ↔
      (countsDurations r c snapshot = true → Closed c s.documents.daily) := by
  rw [documents_of_rejected h hrejected]
  split
  · rename_i hcounts
    rw [← updateDaily_nil_iff, hcounts]
    constructor
    · intro hsame _
      exact congrArg Documents.daily hsame
    · intro hsame
      rw [hsame rfl]
  · rename_i hcounts
    exact ⟨fun _ hcount => absurd hcount hcounts, fun _ => rfl⟩

end

-- ---------------------------------------------------------------------------
-- A camera
-- ---------------------------------------------------------------------------

section

local instance asciiRejected : Unicode := .ascii

def plainReading : Reading := ⟨fun _ => .error "no text", fun _ => none⟩

theorem morning_valid : isDateTime 2026 1 1 8 0 0 = true := rfl

def morning : Clock := ⟨⟨2026, 1, 1, 8, 0, 0, morning_valid⟩, 1767254400⟩

/-- A minute ago the camera was online. -/
def cameraHistory : DurableDeviceHistory where
  documents := {
    devices := .dict [("online", .list [.dict [("mac", .str "aa:bb:cc:dd:ee:ff")]])]
    daily := .dict [("date", .str "2026-01-01"),
      ("devices", .dict [("aa:bb:cc:dd:ee:ff", .dict [("seconds", .int 600), ("online", .bool true),
        ("lastSampleEpoch", .int 1767254340)])]), ("updatedAt", .str "2026-01-01 07:59:00")] }

def emptySnapshot : Snapshot := .payload (.dict [("list", .list []), ("total", .int 0)])

theorem rejected_keeps_iff_camera :
    (ingest plainReading morning emptySnapshot cameraHistory).2.documents = cameraHistory.documents ↔
      (countsDurations plainReading morning emptySnapshot = true →
        Closed morning cameraHistory.documents.daily) :=
  rejected_keeps_iff rfl (by decide +kernel)

/-- The camera is noted as absent although the snapshot is put off. -/
theorem rejected_snapshot_closes : ¬ ∀ (r : Reading) (c : Clock) (snapshot : Snapshot)
    (s s' : DurableDeviceHistory) (outcome : Outcome), ingest r c snapshot s = (outcome, s') →
      outcome.isAccepted = false → s'.documents = s.documents := by
  intro hall
  have hsame := hall plainReading morning emptySnapshot cameraHistory _ _ rfl (by decide +kernel)
  have honline := congrArg (fun d : Documents => (Json.get (asDict (Json.get (asDict (Json.get
    (asDict d.daily) "devices")) "aa:bb:cc:dd:ee:ff")) "online").truthy) hsame
  revert honline
  decide +kernel

end

end LabProbe.Devices
