import LabProbe.Devices.Accounts
import LabProbe.Devices.Traffic

/-!
# Summaries and midnight

The summary of a day copies the seconds that the rows of devices carry. The
rows of a snapshot are counted for its own day. The row of a device that has
gone is the one it had when it was last seen, which may be of the day before.
-/

namespace LabProbe.Devices

open Py Py.Json Hub Runs

section
variable [Unicode]

-- ---------------------------------------------------------------------------
-- Clocks
-- ---------------------------------------------------------------------------

omit [Unicode] in
/-- A clock that is not read before another; within a day the offset stays. -/
structure Follows (k c : Clock) : Prop where
  epoch : k.epoch ≤ c.epoch
  offset : k.day = c.day → k.epoch - k.now.seconds = c.epoch - c.now.seconds

omit [Unicode] in
theorem Follows.later (h : Follows k c) (hday : k.day = c.day) : Later k c where
  year := (DateTime.isoDate_inj hday).1
  month := (DateTime.isoDate_inj hday).2.1
  date := (DateTime.isoDate_inj hday).2.2
  offset := h.offset hday
  epoch := h.epoch

omit [Unicode] in
theorem Follows.secondOfDay_le (h : Follows k c) (hday : k.day = c.day) :
    k.now.secondOfDay ≤ c.now.secondOfDay := by
  have helapsed := (h.later hday).elapsed
  have hepoch := h.epoch
  omega

-- ---------------------------------------------------------------------------
-- Rows of a day
-- ---------------------------------------------------------------------------

omit [Unicode] in
def Elapsed (c : Clock) : Json → Prop
  | .int n => 0 ≤ n ∧ n ≤ c.now.secondOfDay
  | _ => False

omit [Unicode] in
instance (c : Clock) : (value : Json) → Decidable (Elapsed c value)
  | .int _ => inferInstanceAs (Decidable (_ ∧ _))
  | .null | .bool _ | .float .. | .str _ | .list _ | .dict _ => isFalse id

omit [Unicode] in
theorem Elapsed.exists_int (h : Elapsed c value) : ∃ n : Int, value = .int n ∧ 0 ≤ n ∧
    n ≤ c.now.secondOfDay := by
  cases value with
  | int n => exact ⟨n, rfl, h⟩
  | _ => exact h.elim

omit [Unicode] in
theorem Elapsed.mono (h : Elapsed k value) (hle : k.now.secondOfDay ≤ c.now.secondOfDay) :
    Elapsed c value := by
  obtain ⟨n, rfl, hpos, hbound⟩ := h.exists_int
  exact ⟨hpos, by omega⟩

theorem Elapsed.integer (h : Elapsed c value) :
    0 ≤ integer value ∧ integer value ≤ c.now.secondOfDay := by
  obtain ⟨n, rfl, hpos, hbound⟩ := h.exists_int
  have hread : Devices.integer (.int n) = n := by
    refine readBack_eq hpos ?_
    have hday := secondOfDay_lt c
    omega
  rw [hread]
  exact ⟨hpos, hbound⟩

omit [Unicode] in
/-- A row whose seconds are those of the day of a clock. -/
def OfToday (c : Clock) (row : Entries) : Prop :=
  get row "todayOnlineDate" = .str c.day ∧ Elapsed c (get row "todayOnlineDurationSec")

omit [Unicode] in
instance (c : Clock) (row : Entries) : Decidable (OfToday c row) :=
  inferInstanceAs (Decidable (_ ∧ _))

theorem cleanSavedValue_digits {v : Json} (hv : v ≠ .null)
    (hall : ∀ c ∈ v.toStr.toList, c.isDigit = true ∨ c = '-')
    (hsome : ∃ c ∈ v.toStr.toList, c.isDigit = true) : cleanSavedValue v ≠ "" := by
  obtain ⟨digit, hmem, hdigit⟩ := hsome
  have hspace : strip v.toStr = v.toStr := by
    refine strip_of_noSpace fun c hc => ?_
    rcases hall c hc with h | rfl
    · exact isSpace_of_isDigit h
    · decide
  have hascii : v.toStr.toList.all (fun c => c.toNat < 128) = true := by
    rw [List.all_eq_true]
    intro c hc
    rcases hall c hc with h | rfl
    · have hrange : 48 ≤ c.toNat ∧ c.toNat ≤ 57 := Char.isDigit_iff_toNat.mp h
      exact decide_eq_true (by omega)
    · decide
  have hlower : asciiLower v.toStr = v.toStr := by
    have hsame : v.toStr.toList.map Char.toLower = v.toStr.toList := by
      refine (List.map_congr_left fun c hc => ?_).trans (List.map_id _)
      rcases hall c hc with h | rfl
      · have hrange : 48 ≤ c.toNat ∧ c.toNat ≤ 57 := Char.isDigit_iff_toNat.mp h
        have hupper : ¬ (c.val ≥ 'A'.val ∧ c.val ≤ 'Z'.val) := by
          rintro ⟨hge, -⟩
          have hnat : 'A'.val.toNat ≤ c.val.toNat := hge
          have hval : c.val.toNat = c.toNat := rfl
          have hA : 'A'.val.toNat = 65 := rfl
          omega
        delta Char.toLower
        rw [dif_neg hupper]
        rfl
      · rfl
    rw [asciiLower, hsame, String.ofList_toList]
  have hword : ∀ t : String, t.toList.any Char.isDigit = false → v.toStr ≠ t := by
    rintro t ht rfl
    exact List.any_eq_false.mp ht digit hmem hdigit
  have hvalue : cleanSavedValue v = v.toStr := by
    cases v with
    | null => exact absurd rfl hv
    | _ =>
      simp only [cleanSavedValue, hspace, Unicode.lower_ascii _ hascii, hlower]
      rw [if_neg]
      rw [Bool.or_eq_true, not_or]
      refine ⟨?_, fun hdash => hword "-" (by decide) (beq_iff_eq.mp hdash)⟩
      intro hcontains
      have hin := List.contains_iff_mem.mp hcontains
      simp only [List.mem_cons, List.not_mem_nil, or_false] at hin
      rcases hin with h | h | h | h
      · exact hword "" (by decide) h
      · exact hword "null" (by decide) h
      · exact hword "none" (by decide) h
      · exact hword "nan" (by decide) h
  rw [hvalue]
  exact hword "" (by decide)

theorem cleanSavedValue_seconds {n : Int} (h : 0 ≤ n) : cleanSavedValue (.int n) ≠ "" := by
  obtain ⟨m, rfl⟩ := Int.eq_ofNat_of_zero_le h
  have htext : (toStr (.int (m : Int))).toList = Nat.toDigits 10 m := Nat.toList_repr
  obtain ⟨c, cs, hcs⟩ := List.exists_cons_of_ne_nil (Nat.toDigits_ne_nil (n := m) (b := 10))
  refine cleanSavedValue_digits (by simp) ?_ ?_
  · rw [htext]
    exact fun c hc => .inl (isDigit_toDigits c hc)
  · rw [htext]
    have hmem : c ∈ Nat.toDigits 10 m := hcs ▸ List.mem_cons_self
    exact ⟨c, hmem, isDigit_toDigits c hmem⟩

theorem cleanSavedValue_day (c : Clock) : cleanSavedValue (.str c.day) ≠ "" := by
  have htext : (toStr (.str c.day)).toList = c.now.dateChars := String.toList_ofList
  have hyear : ∀ d ∈ DateTime.zeroPadded 4 c.now.year, d.isDigit = true := DateTime.isDigit_zeroPadded
  obtain ⟨d, ds, hds⟩ := List.exists_cons_of_ne_nil (l := DateTime.zeroPadded 4 c.now.year)
    (List.append_ne_nil_of_right_ne_nil _ Nat.toDigits_ne_nil)
  refine cleanSavedValue_digits (by simp) ?_ ?_
  · rw [htext]
    intro d hd
    simp only [DateTime.dateChars, List.mem_append, List.mem_cons] at hd
    rcases hd with (hd | rfl | hd) | rfl | hd
    · exact .inl (hyear d hd)
    · exact .inr rfl
    · exact .inl (DateTime.isDigit_zeroPadded d hd)
    · exact .inr rfl
    · exact .inl (DateTime.isDigit_zeroPadded d hd)
  · rw [htext]
    exact ⟨d, by simp [DateTime.dateChars, hds], hyear d (hds ▸ List.mem_cons_self)⟩

-- ---------------------------------------------------------------------------
-- The rows of a snapshot
-- ---------------------------------------------------------------------------

theorem get_fillKey_kept {key key' : String} (h : cleanSavedValue (get out key) ≠ "") :
    get (fillKey old out key') key = get out key := by
  unfold fillKey
  split
  · rename_i hfill
    refine get_set_of_ne ?_
    rintro rfl
    rw [Bool.and_eq_true, decide_eq_true_eq] at hfill
    exact h hfill.1
  · rfl

theorem get_hydrateDevice_kept {c : Clock} {archive device : Entries} {key : String}
    (h : cleanSavedValue (get device key) ≠ "") (hkey : "lastIp" ≠ key) :
    get (hydrateDevice c archive device) key = get device key := by
  have hfold : ∀ (old : Entries) (keys : List String) (out : Entries),
      cleanSavedValue (get out key) ≠ "" → get (keys.foldl (fillKey old) out) key = get out key := by
    intro old keys
    induction keys with
    | nil => exact fun _ _ => rfl
    | cons key' keys ih =>
      intro out hout
      have hkept : get (fillKey old out key') key = get out key := get_fillKey_kept hout
      rw [List.foldl_cons, ih _ (by rwa [hkept]), hkept]
  have hfilled := fun old => hfold old (hydrateKeys c old) device h
  unfold hydrateDevice
  dsimp only
  split
  · rfl
  · split
    · exact hfilled _
    · have hlast : ∀ (old out : Entries) (key' : String), get out key = get device key →
          get (fillKey old out key') key = get device key := fun old out key' hout =>
        (get_fillKey_kept (by rwa [hout])).trans hout
      refine hlast _ _ _ ?_
      split
      · rw [get_set_of_ne hkey, hfilled]
      · exact hfilled _

theorem OfToday.onlineRow {c : Clock} {archive device : Entries} (h : OfToday c device) :
    OfToday c (onlineRow c archive device) := by
  obtain ⟨n, hn, hpos, -⟩ := h.2.exists_int
  have hdate : cleanSavedValue (get device "todayOnlineDate") ≠ "" := by
    rw [h.1]
    exact cleanSavedValue_day c
  have hseconds : cleanSavedValue (get device "todayOnlineDurationSec") ≠ "" := by
    rw [hn]
    exact cleanSavedValue_seconds hpos
  have hframe : ∀ key : String, "online" ≠ key → "lastSeenAt" ≠ key → "offlineAt" ≠ key →
      get (Devices.onlineRow c archive device) key = get (hydrateDevice c archive device) key := by
    intro key h1 h2 h3
    rw [Devices.onlineRow, get_set_of_ne h3, get_set_of_ne h2, get_set_of_ne h1]
  rw [OfToday, hframe _ (by decide) (by decide) (by decide),
    hframe _ (by decide) (by decide) (by decide), get_hydrateDevice_kept hdate (by decide),
    get_hydrateDevice_kept hseconds (by decide)]
  exact h

omit [Unicode] in
theorem OfToday.compact {c : Clock} {row : Entries} (h : OfToday c row) :
    OfToday c (compactEntries row) := by
  obtain ⟨n, hn, hbounds⟩ := h.2.exists_int
  have hlength : c.day.length ≤ 65536 := by
    have hten : c.day.length = 10 := by
      rw [← String.length_toList, Clock.day, DateTime.isoDate, String.toList_ofList,
        DateTime.length_dateChars]
    omega
  constructor
  · rw [get_compactEntries (by decide), h.1, compact_str hlength]
  · rw [get_compactEntries (by decide), hn]
    exact hbounds

theorem ofToday_deviceRow (c : Clock) (item : Entries) : OfToday c (deviceRow c item) := by
  obtain ⟨hpos, hbound⟩ := seedOf_bounds c [("raw", .dict item)]
  exact ⟨rfl, hpos, hbound⟩

omit [Unicode] in
theorem ofToday_markDuration {c : Clock} {seconds : Int} {device : Entries} (hpos : 0 ≤ seconds)
    (hbound : seconds ≤ c.now.secondOfDay) : OfToday c (markDuration c seconds device) := by
  constructor
  · rw [markDuration, get_set, if_pos rfl]
  · rw [markDuration, get_set_of_ne (by decide), get_set_of_ne (by decide), get_set, if_pos rfl]
    exact ⟨hpos, hbound⟩

-- ---------------------------------------------------------------------------
-- The summaries
-- ---------------------------------------------------------------------------

omit [Unicode] in
/-- The entries of a day. -/
def dayEntries (rollups : Json) (day : String) : Entries :=
  asDict (get (asDict (get (asDict (get (asDict rollups) "days")) day)) "devices")

omit [Unicode] in
/-- The seconds that the summary of a day stores for a device. -/
def storedSeconds (rollups : Json) (day mac : String) : Int :=
  match get (asDict (get (dayEntries rollups day) mac)) "onlineDurationSec" with
  | .int n => n
  | _ => 0

omit [Unicode] in
def EntryWithin (c : Clock) (entry : Json) : Prop :=
  ∃ fields, entry = .dict fields ∧ Elapsed c (get fields "onlineDurationSec")

omit [Unicode] in
theorem EntryWithin.longer [Unicode] {c : Clock} {entries row : Entries}
    (h : ∀ mac entry, Dict.get? entries mac = some entry → EntryWithin c entry)
    (hrow : integer (get row "todayOnlineDurationSec") ≤ c.now.secondOfDay) (mac : String) :
    Elapsed c (longerDuration (asDict (get entries mac)) row) := by
  refine ⟨le_max_of_le_left (integer_nonneg _), max_le ?_ hrow⟩
  cases hentry : Dict.get? entries mac with
  | none =>
    have hget : get entries mac = .null := by rw [Json.get, hentry, Option.getD_none]
    have hzero : integer .null = 0 := by
      have htext : toStr .null = "None" := rfl
      rw [integer, htext]
      decide
    have hnull : integer (get (asDict (get entries mac)) "onlineDurationSec") = 0 := by
      rw [hget]
      exact hzero
    rw [hnull]
    exact Int.natCast_nonneg _
  | some entry =>
    obtain ⟨fields, rfl, helapsed⟩ := h mac entry hentry
    have hget : get entries mac = .dict fields := by rw [Json.get, hentry, Option.getD_some]
    rw [hget, asDict_dict]
    exact helapsed.integer.2

theorem entriesWithin_foldl {c : Clock} {rows : List (String × Entries)} {entries : Entries}
    (f : String → Entries → Entries → Entries)
    (hf : ∀ mac entry row, get (f mac entry row) "onlineDurationSec" = longerDuration entry row)
    (hrows : ∀ row ∈ rows, integer (get row.2 "todayOnlineDurationSec") ≤ c.now.secondOfDay)
    (h : ∀ mac entry, Dict.get? entries mac = some entry → EntryWithin c entry) (mac : String)
    (entry : Json) (hentry : Dict.get? (rows.foldl (fun entries (mac, row) =>
      Dict.set entries mac (.dict (f mac (asDict (get entries mac)) row))) entries) mac = some entry) :
    EntryWithin c entry := by
  induction rows generalizing entries with
  | nil => exact h mac entry hentry
  | cons row rows ih =>
    obtain ⟨hrow, hrest⟩ := List.forall_mem_cons.mp hrows
    have hset : ∀ mac' entry', Dict.get? (Dict.set entries row.1
        (.dict (f row.1 (asDict (get entries row.1)) row.2))) mac' = some entry' →
        EntryWithin c entry' := by
      intro mac' entry' hentry'
      rw [Dict.get?_set] at hentry'
      split at hentry'
      · rw [Option.some.injEq] at hentry'
        subst hentry'
        refine ⟨_, rfl, ?_⟩
        rw [hf]
        exact EntryWithin.longer h hrow row.1
      · exact h mac' entry' hentry'
    exact ih hrest hset hentry

theorem dayEntries_updateRollup (c : Clock) (current previous : List (String × Entries))
    (rollups : Json) (day : String) :
    dayEntries (updateRollup c current previous rollups) day = [] ∨
    dayEntries (updateRollup c current previous rollups) day =
      if day = c.day then
        (previous.filter fun entry => (Dict.get? current entry.1).isNone).foldl
          (fun entries (mac, old) =>
            Dict.set entries mac (.dict (rollupOffline c mac (asDict (get entries mac)) old)))
          (current.foldl (fun entries (mac, device) =>
            Dict.set entries mac (.dict (rollupOnline c mac (asDict (get entries mac)) device)))
            (dayEntries rollups c.day))
      else dayEntries rollups day := by
  have hdays : ∀ days : Entries, get (asDict (.dict [("version", .int 2), ("days", .dict days),
      ("updatedAt", .str c.stamp)])) "days" = .dict days := fun _ => rfl
  rw [updateRollup, dayEntries, hdays, asDict_dict, keepDays]
  dsimp only
  simp only [Json.get, Dict.get?_filter_key]
  split
  · right
    rw [Dict.get?_set]
    by_cases hday : c.day = day
    · rw [if_pos hday, if_pos hday.symm]
      simp only [Option.getD_some, asDict_dict, Dict.get?_set, if_pos]
      rfl
    · rw [if_neg hday, if_neg (Ne.symm hday)]
      rfl
  · exact .inl rfl

theorem get_seconds_rollup (c : Clock) (mac : String) (entry device : Entries) :
    get (rollupOnline c mac entry device) "onlineDurationSec" = longerDuration entry device ∧
      get (rollupOffline c mac entry device) "onlineDurationSec" = longerDuration entry device := by
  simp only [rollupOnline, rollupOffline, List.foldl_cons, List.foldl_nil, get_set, if_true, and_self]

theorem entriesWithin_updateRollup {c : Clock} {current previous : List (String × Entries)}
    {rollups : Json}
    (hcurrent : ∀ row ∈ current, integer (get row.2 "todayOnlineDurationSec") ≤ c.now.secondOfDay)
    (hgone : ∀ row ∈ previous.filter fun entry => (Dict.get? current entry.1).isNone,
      integer (get row.2 "todayOnlineDurationSec") ≤ c.now.secondOfDay)
    (h : ∀ mac entry, Dict.get? (dayEntries rollups c.day) mac = some entry → EntryWithin c entry)
    (mac : String) (entry : Json)
    (hentry : Dict.get? (dayEntries (updateRollup c current previous rollups) c.day) mac = some entry) :
    EntryWithin c entry := by
  rcases dayEntries_updateRollup c current previous rollups c.day with hnone | hday
  · rw [hnone] at hentry
    cases hentry
  · rw [hday, if_pos rfl] at hentry
    refine entriesWithin_foldl (rollupOffline c)
      (fun mac entry row => (get_seconds_rollup c mac entry row).2) hgone ?_ mac entry hentry
    exact entriesWithin_foldl (rollupOnline c)
      (fun mac entry row => (get_seconds_rollup c mac entry row).1) hcurrent h

theorem get?_dayEntries_other {c : Clock} {current previous : List (String × Entries)}
    {rollups : Json} {day : String} (hday : day ≠ c.day)
    (h : Dict.get? (dayEntries (updateRollup c current previous rollups) day) mac = some entry) :
    Dict.get? (dayEntries rollups day) mac = some entry := by
  rcases dayEntries_updateRollup c current previous rollups day with hnone | hother
  · rw [hnone] at h
    cases h
  · rwa [hother, if_neg hday] at h

theorem rollups_accept (c : Clock) (online : List Entries) (total : Int) (d : Documents)
    (daily : Json) : (acceptDocuments c online total { d with daily := daily }).rollups =
      updateRollup c (deviceMap (hydratedRows c d online)) (previousOnline d.devices) d.rollups := rfl

-- ---------------------------------------------------------------------------
-- Runs
-- ---------------------------------------------------------------------------

omit [Unicode] in
/-- A snapshot, and the clock of its `ingest`. -/
structure Ingestion where
  clock : Clock
  snapshot : Snapshot

def step (r : Reading) (s : DurableDeviceHistory) (e : Ingestion) : DurableDeviceHistory :=
  (ingest r e.clock e.snapshot s).2

def goneDevices (r : Reading) (s : DurableDeviceHistory) (e : Ingestion) : List (String × Entries) :=
  match collect r e.clock s.documents.daily e.snapshot with
  | .error _ => []
  | .ok (online, _, _) =>
    if (ingest r e.clock e.snapshot s).1.isAccepted then
      (previousOnline s.documents.devices).filter fun entry =>
        (Dict.get? (deviceMap (hydratedRows e.clock s.documents online)) entry.1).isNone
    else []

/-- Each device that has gone was last seen on the day, or its seconds are
no more than the day has had; rows that were prepared are of the day. -/
def SameDay (r : Reading) (s : DurableDeviceHistory) (e : Ingestion) : Prop :=
  (match e.snapshot with
    | .payload _ => True
    | .prepared rows _ => ∀ row ∈ rows.filterMap dict?, OfToday e.clock row) ∧
  ∀ entry ∈ goneDevices r s e, get entry.2 "todayOnlineDate" = .str e.clock.day ∨
    integer (get entry.2 "todayOnlineDurationSec") ≤ e.clock.now.secondOfDay

instance (r : Reading) (s : DurableDeviceHistory) (e : Ingestion) : Decidable (SameDay r s e) := by
  unfold SameDay
  exact match e.snapshot with
    | .payload _ => inferInstance
    | .prepared _ _ => inferInstance

structure Dated (past : List Clock) (d : Documents) : Prop where
  daily : ∀ c, OfDay c d.daily → ∃ k ∈ past, k.day = c.day ∧ ∃ present, ∀ mac entry,
    Dict.get? (entriesOf c d.daily) mac = some entry → Counted k present mac entry
  devices : ∀ row ∈ documentRows d.devices, ∃ k ∈ past, OfToday k row
  rollups : ∀ day mac entry, Dict.get? (dayEntries d.rollups day) mac = some entry →
    ∃ k ∈ past, k.day = day ∧ EntryWithin k entry

omit [Unicode] in
theorem Dated.start : Dated [] {} where
  daily := by
    rintro c ⟨state, hstate, -⟩
    cases hstate
  devices := fun _ hrow => (by cases hrow)
  rollups := fun day mac entry hentry => by
    have hnone : dayEntries ({} : Documents).rollups day = [] := rfl
    rw [hnone] at hentry
    cases hentry

omit [Unicode] in
theorem entriesOf_congr {c d : Clock} (h : c.day = d.day) (hof : OfDay d daily) :
    entriesOf c daily = entriesOf d daily := by
  obtain ⟨state, rfl, hdate⟩ := hof
  have hget : get state "date" = .str d.day := by rw [Json.get, hdate, Option.getD_some]
  rw [entriesOf, entriesOf, openDaily, openDaily, hget, h]
  simp only [Json.str_eq_str, if_true]

omit [Unicode] in
theorem Dated.counted {past : List Clock} {d : Documents} {c : Clock} (h : Dated past d)
    (hpast : ∀ k ∈ past, Follows k c) : ∃ k, Later k c ∧ ∃ present, ∀ mac entry,
      Dict.get? (entriesOf c d.daily) mac = some entry → Counted k present mac entry := by
  by_cases hof : OfDay c d.daily
  · obtain ⟨k, hk, hday, present, hcounted⟩ := h.daily c hof
    exact ⟨k, (hpast k hk).later hday, present, hcounted⟩
  · refine ⟨c, Later.rfl c, [], fun mac entry hentry => ?_⟩
    rw [entriesOf_other hof] at hentry
    cases hentry

theorem counted_count {daily : Json} (call : Call) {k : Clock} {present : List String}
    (h : ∀ mac entry, Dict.get? (entriesOf call.clock daily) mac = some entry →
      Counted k present mac entry) (hl : Later k call.clock) (c : Clock)
    (hof : OfDay c (count daily call)) : call.clock.day = c.day ∧ ∀ mac entry,
      Dict.get? (entriesOf c (count daily call)) mac = some entry →
        Counted call.clock call.macs mac entry := by
  have hown : OfDay call.clock (count daily call) :=
    ⟨_, rfl, by rw [Dict.get?_set, if_neg (by decide), Dict.get?_set, if_neg (by decide),
      Dict.get?_set, if_pos rfl]⟩
  have hday : call.clock.day = c.day := by
    obtain ⟨state, hstate, hdate⟩ := hof
    obtain ⟨state', hstate', hdate'⟩ := hown
    rw [hstate, Json.dict.injEq] at hstate'
    subst hstate'
    rw [hdate', Option.some.injEq, Json.str.injEq] at hdate
    exact hdate
  refine ⟨hday, fun mac entry hentry => ?_⟩
  rw [entriesOf_congr hday.symm hown] at hentry
  exact (count_step h hl (Later.rfl _) mac).1 entry hentry

theorem ofToday_markDurations {c : Clock} {entries : Entries} {devices : List Entries}
    (hrows : ∀ device ∈ devices, OfToday c device)
    (hcount : ∀ device ∈ devices, rowMac device ≠ "" →
      0 ≤ countSeconds c device (asDict (get entries (rowMac device))) ∧
      countSeconds c device (asDict (get entries (rowMac device))) ≤ c.now.secondOfDay)
    (row : Entries) (hrow : row ∈ markDurations c entries devices) : OfToday c row := by
  induction devices with
  | nil => cases hrow
  | cons device devices ih =>
    rw [markDurations, List.mem_cons] at hrow
    rcases hrow with rfl | hrow
    · split
      · exact hrows device List.mem_cons_self
      · rename_i hmarked
        have hmac : rowMac device ≠ "" := by
          intro hempty
          have hnamed : normMac (get device "mac") = "" := hempty
          rw [hnamed] at hmarked
          exact hmarked rfl
        obtain ⟨hpos, hbound⟩ := hcount device List.mem_cons_self hmac
        exact ofToday_markDuration hpos hbound
    · exact ih (fun d hd => hrows d (List.mem_cons_of_mem _ hd))
        (fun d hd => hcount d (List.mem_cons_of_mem _ hd)) hrow

theorem parseDevices_ofToday {r : Reading} {c : Clock} {payload : Json} {devices : List Entries}
    {total : Int} (h : parseDevices r c payload = .ok (devices, total)) :
    ∀ device ∈ devices, OfToday c device := by
  obtain ⟨payload', -, h⟩ := Check.bind_eq_ok.mp h
  obtain ⟨items, -, h⟩ := Check.bind_eq_ok.mp h
  obtain ⟨read, hread, h⟩ := Check.bind_eq_ok.mp h
  obtain rfl : read = devices := (Prod.mk.inj (Except.ok.inj h)).1
  intro device hdevice
  obtain ⟨item, -, hitem⟩ := Check.exists_of_mem_right (Check.mapM_ok hread) device hdevice
  unfold readItem at hitem
  split at hitem
  · cases hitem
  · cases hitem
    exact ofToday_deviceRow c item

theorem mem_macs {devices : List Entries} {device : Entries} (h : device ∈ devices)
    (hmac : rowMac device ≠ "") : rowMac device ∈ macs devices := by
  rw [macs, deviceMap, Dict.mem_keys_ofEntries, keys_rows, List.mem_filter]
  exact ⟨List.mem_map_of_mem h, decide_eq_true hmac⟩

theorem collect_ofToday {r : Reading} {c k : Clock} {snapshot : Snapshot} {daily daily' : Json}
    {present : List String} {online : List Entries} {total : Int}
    (hcounted : ∀ mac entry, Dict.get? (entriesOf c daily) mac = some entry →
      Counted k present mac entry) (hl : Later k c)
    (hprepared : ∀ rows total, snapshot = .prepared rows total →
      ∀ row ∈ rows.filterMap dict?, OfToday c row)
    (h : collect r c daily snapshot = .ok (online, total, daily')) :
    (∀ row ∈ online, OfToday c row) ∧
      (daily' = daily ∨ ∃ devices, daily' = count daily ⟨c, devices⟩) := by
  cases snapshot with
  | prepared rows total' =>
    obtain ⟨rfl, hrest⟩ := Prod.mk.inj (Except.ok.inj h)
    exact ⟨hprepared _ _ rfl, .inl (Prod.mk.inj hrest).2.symm⟩
  | payload payload =>
    obtain ⟨⟨devices, total'⟩, hparse, hrest⟩ := Check.bind_eq_ok.mp h
    obtain rfl : (updateDailyOnlineDurations c devices daily).1 = online :=
      (Prod.mk.inj (Except.ok.inj hrest)).1
    have hdaily : count daily ⟨c, devices⟩ = daily' :=
      (Prod.mk.inj (Prod.mk.inj (Except.ok.inj hrest)).2).2
    refine ⟨?_, .inr ⟨devices, hdaily.symm⟩⟩
    refine ofToday_markDurations (parseDevices_ofToday hparse) fun device hdevice hmac => ?_
    obtain ⟨growth, hgrowth, -, hgap, -, hcount, hpos, hbound⟩ := countSeconds_closed ⟨c, devices⟩
      (hcounted (rowMac device)) hl (mem_macs hdevice hmac) device
    obtain ⟨hseed, hseedBound⟩ := seedOf_bounds c device
    have hget : get ((asDict (get (openDaily c daily) "devices")).map fun e =>
        (e.1, closeEntry c (Dict.keys (deviceMap devices)) e.1 e.2)) (rowMac device) =
        ((Dict.get? (entriesOf c daily) (rowMac device)).map
          (closeEntry c (Call.mk c devices).macs (rowMac device))).getD .null := by
      rw [Json.get, get?_close]
      rfl
    have helapsed := hl.elapsed
    dsimp only at hcount hpos hbound hgap
    rw [hget, hcount]
    omega

theorem mem_previousOnline {devices : Json} {entry : String × Entries}
    (h : entry ∈ previousOnline devices) : entry.2 ∈ documentRows devices := by
  obtain ⟨row, hrow, hentry⟩ := List.mem_filterMap.mp (Dict.mem_ofEntries h)
  dsimp only at hentry
  split at hentry
  · cases hentry
  · cases hentry
    exact hrow

theorem seconds_deviceMap {c : Clock} {rows : List Entries} (h : ∀ row ∈ rows, OfToday c row) :
    ∀ entry ∈ deviceMap rows, integer (get entry.2 "todayOnlineDurationSec") ≤ c.now.secondOfDay := by
  intro entry hentry
  obtain ⟨row, hrow, hrowEntry⟩ := List.mem_filterMap.mp (Dict.mem_ofEntries hentry)
  dsimp only at hrowEntry
  split at hrowEntry
  · cases hrowEntry
  · cases hrowEntry
    exact (h row hrow).2.integer.2

/-- A snapshot of which the condition holds keeps the documents dated, and
stores no more seconds than its day has had. -/
theorem Dated.ingest {r : Reading} {past : List Clock} {s : DurableDeviceHistory} {e : Ingestion}
    (h : Dated past s.documents) (hpast : ∀ k ∈ past, Follows k e.clock) (hday : SameDay r s e) :
    Dated (past ++ [e.clock]) (step r s e).documents ∧
      ∀ mac entry, Dict.get? (dayEntries (step r s e).documents.rollups e.clock.day) mac = some entry →
        EntryWithin e.clock entry := by
  have hkept : ∀ day mac entry, Dict.get? (dayEntries s.documents.rollups day) mac = some entry →
      day = e.clock.day → EntryWithin e.clock entry := by
    rintro _ mac entry hentry rfl
    obtain ⟨k, hk, hkday, fields, rfl, helapsed⟩ := h.rollups _ mac entry hentry
    exact ⟨fields, rfl, helapsed.mono ((hpast k hk).secondOfDay_le hkday)⟩
  have holder : ∀ day mac entry, Dict.get? (dayEntries s.documents.rollups day) mac = some entry →
      ∃ k ∈ past ++ [e.clock], k.day = day ∧ EntryWithin k entry := by
    intro day mac entry hentry
    obtain ⟨k, hk, hkeep⟩ := h.rollups day mac entry hentry
    exact ⟨k, List.mem_append_left _ hk, hkeep⟩
  have hrows : ∀ row ∈ documentRows s.documents.devices, ∃ k ∈ past ++ [e.clock], OfToday k row := by
    intro row hrow
    obtain ⟨k, hk, hkeep⟩ := h.devices row hrow
    exact ⟨k, List.mem_append_left _ hk, hkeep⟩
  have hsame : ∀ c, OfDay c s.documents.daily → ∃ k ∈ past ++ [e.clock], k.day = c.day ∧
      ∃ present, ∀ mac entry, Dict.get? (entriesOf c s.documents.daily) mac = some entry →
        Counted k present mac entry := by
    intro c hof
    obtain ⟨k, hk, hkeep⟩ := h.daily c hof
    exact ⟨k, List.mem_append_left _ hk, hkeep⟩
  obtain ⟨k, hl, present, hcounted⟩ := h.counted hpast
  have hprepared : ∀ rows total, e.snapshot = .prepared rows total →
      ∀ row ∈ rows.filterMap dict?, OfToday e.clock row := by
    intro rows total hsnapshot
    have hsame := hday.1
    rwa [hsnapshot] at hsame
  have hdaily : ∀ daily', (daily' = s.documents.daily ∨
      ∃ devices, daily' = count s.documents.daily ⟨e.clock, devices⟩) →
      ∀ c, OfDay c daily' → ∃ k ∈ past ++ [e.clock], k.day = c.day ∧ ∃ present, ∀ mac entry,
        Dict.get? (entriesOf c daily') mac = some entry → Counted k present mac entry := by
    rintro daily' (rfl | ⟨devices, rfl⟩) c hof
    · exact hsame c hof
    · obtain ⟨hcday, hcount⟩ := counted_count ⟨e.clock, devices⟩ hcounted hl c hof
      exact ⟨e.clock, by simp, hcday, _, hcount⟩
  rcases hstep : Devices.ingest r e.clock e.snapshot s with ⟨outcome, s'⟩
  have hs' : step r s e = s' := by rw [step, hstep]
  rw [hs']
  obtain ⟨message, -, -, hdocuments⟩ | ⟨total, daily, hcollect, -, hdocuments⟩ |
    ⟨online, total, daily, hcollect, haccepted, hdocuments⟩ := ingest_cases hstep
  · rw [hdocuments]
    exact ⟨⟨hsame, hrows, holder⟩, fun mac entry hentry => hkept _ mac entry hentry rfl⟩
  · rw [hdocuments]
    have hcollected := (collect_ofToday hcounted hl hprepared hcollect).2
    exact ⟨⟨hdaily daily hcollected, hrows, holder⟩,
      fun mac entry hentry => hkept _ mac entry hentry rfl⟩
  · rw [hdocuments]
    obtain ⟨honline, hcollected⟩ := collect_ofToday hcounted hl hprepared hcollect
    have hhydrated : ∀ row ∈ hydratedRows e.clock s.documents online, OfToday e.clock row := by
      intro row hrow
      obtain ⟨device, hdevice, rfl⟩ := List.mem_map.mp hrow
      exact (honline device hdevice).onlineRow
    have hcurrent := seconds_deviceMap hhydrated
    have hgone : ∀ entry ∈ (previousOnline s.documents.devices).filter fun entry =>
        (Dict.get? (deviceMap (hydratedRows e.clock s.documents online)) entry.1).isNone,
        integer (get entry.2 "todayOnlineDurationSec") ≤ e.clock.now.secondOfDay := by
      intro entry hentry
      have hall : goneDevices r s e = (previousOnline s.documents.devices).filter fun entry =>
          (Dict.get? (deviceMap (hydratedRows e.clock s.documents online)) entry.1).isNone := by
        rw [goneDevices, hcollect, hstep, haccepted]
        exact if_pos rfl
      rcases hday.2 entry (hall ▸ hentry) with hdate | hbound
      · obtain ⟨k', hk', hkdate, hkelapsed⟩ :=
          h.devices entry.2 (mem_previousOnline (List.mem_filter.mp hentry).1)
        rw [hkdate, Json.str.injEq] at hdate
        exact (hkelapsed.mono ((hpast k' hk').secondOfDay_le hdate)).integer.2
      · exact hbound
    have hrollups := rollups_accept e.clock online total s.documents daily
    have hentries := entriesWithin_updateRollup hcurrent hgone
      fun mac entry hentry => hkept _ mac entry hentry rfl
    rw [hrollups]
    refine ⟨⟨hdaily daily hcollected, ?_, ?_⟩, hentries⟩
    · intro row hrow
      rw [documentRows_accept] at hrow
      obtain ⟨row', hrow', rfl⟩ := List.mem_map.mp hrow
      exact ⟨e.clock, by simp, (hhydrated row' hrow').compact⟩
    · intro day mac entry hentry
      rw [hrollups] at hentry
      by_cases hcday : day = e.clock.day
      · subst hcday
        exact ⟨e.clock, by simp, rfl, hentries mac entry hentry⟩
      · exact holder day mac entry (get?_dayEntries_other hcday hentry)

theorem otherDays_step {r : Reading} {s : DurableDeviceHistory} {e : Ingestion} {day : String}
    (hday : day ≠ e.clock.day) (mac : String) :
    Dict.get? (dayEntries (step r s e).documents.rollups day) mac =
        Dict.get? (dayEntries s.documents.rollups day) mac ∨
      dayEntries (step r s e).documents.rollups day = [] := by
  rcases hstep : Devices.ingest r e.clock e.snapshot s with ⟨outcome, s'⟩
  have hs' : step r s e = s' := by rw [step, hstep]
  rw [hs']
  obtain ⟨message, -, -, hdocuments⟩ | ⟨total, daily, -, -, hdocuments⟩ |
    ⟨online, total, daily, -, -, hdocuments⟩ := ingest_cases hstep
  · have hrollups : s'.documents.rollups = s.documents.rollups := by rw [hdocuments]
    rw [hrollups]
    exact .inl rfl
  · have hrollups : s'.documents.rollups = s.documents.rollups := by rw [hdocuments]
    rw [hrollups]
    exact .inl rfl
  · have hrollups : s'.documents.rollups =
        updateRollup e.clock (deviceMap (hydratedRows e.clock s.documents online))
          (previousOnline s.documents.devices) s.documents.rollups := by
      rw [hdocuments, rollups_accept]
    rw [hrollups]
    rcases dayEntries_updateRollup e.clock (deviceMap (hydratedRows e.clock s.documents online))
      (previousOnline s.documents.devices) s.documents.rollups day with hnone | hother
    · exact .inr hnone
    · rw [hother, if_neg hday]
      exact .inl rfl

theorem dated_run {r : Reading} {events : List Ingestion}
    (hclocks : events.Pairwise fun a b => Follows a.clock b.clock)
    (hday : Along (step r) (SameDay r) {} events) :
    Dated (events.map (·.clock)) (run (step r) {} events).documents := by
  induction events using List.reverseRecOn with
  | nil => exact .start
  | append_singleton events e ih =>
    obtain ⟨hbefore, -, hlast⟩ := List.pairwise_append.mp hclocks
    obtain ⟨hday, hstep, -⟩ := along_append.mp hday
    have hpast : ∀ k ∈ events.map (·.clock), Follows k e.clock := by
      intro k hk
      obtain ⟨a, ha, rfl⟩ := List.mem_map.mp hk
      exact hlast a ha e (List.mem_singleton_self e)
    rw [run_append, List.map_append]
    exact ((ih hbefore hday).ingest hpast hstep).1

omit [Unicode] in
theorem storedSeconds_le {rollups : Json} {c : Clock} {day : String}
    (h : ∀ entry, Dict.get? (dayEntries rollups day) mac = some entry → EntryWithin c entry) :
    storedSeconds rollups day mac ≤ c.now.secondOfDay := by
  cases hentry : Dict.get? (dayEntries rollups day) mac with
  | none =>
    have hget : get (dayEntries rollups day) mac = .null := by rw [Json.get, hentry, Option.getD_none]
    have hempty : asDict (get (dayEntries rollups day) mac) = [] := by
      rw [hget]
      rfl
    delta storedSeconds
    rw [hempty]
    exact Int.natCast_nonneg _
  | some entry =>
    obtain ⟨fields, rfl, helapsed⟩ := h entry hentry
    obtain ⟨n, hn, -, hbound⟩ := helapsed.exists_int
    have hget : get (dayEntries rollups day) mac = .dict fields := by
      rw [Json.get, hentry, Option.getD_some]
    have hfields : asDict (get (dayEntries rollups day) mac) = fields := by
      rw [hget, asDict_dict]
    delta storedSeconds
    rw [hfields, hn]
    exact hbound

/-- Through every run of which the condition holds, each snapshot leaves no
device more seconds in the summary of its day than the day has had, and the
summaries of other days stay as they are, or are dropped. -/
theorem seconds_within_day {r : Reading} {events : List Ingestion} {e : Ingestion}
    (hclocks : (events ++ [e]).Pairwise fun a b => Follows a.clock b.clock)
    (hday : Along (step r) (SameDay r) {} (events ++ [e])) (mac : String) :
    storedSeconds (run (step r) {} (events ++ [e])).documents.rollups e.clock.day mac ≤
        e.clock.now.secondOfDay ∧
      ∀ day ≠ e.clock.day,
        Dict.get? (dayEntries (run (step r) {} (events ++ [e])).documents.rollups day) mac =
            Dict.get? (dayEntries (run (step r) {} events).documents.rollups day) mac ∨
          dayEntries (run (step r) {} (events ++ [e])).documents.rollups day = [] := by
  obtain ⟨hbefore, -, hlast⟩ := List.pairwise_append.mp hclocks
  obtain ⟨hrun, hstep, -⟩ := along_append.mp hday
  have hpast : ∀ k ∈ events.map (·.clock), Follows k e.clock := by
    intro k hk
    obtain ⟨a, ha, rfl⟩ := List.mem_map.mp hk
    exact hlast a ha e (List.mem_singleton_self e)
  rw [run_append]
  refine ⟨storedSeconds_le fun entry =>
    ((dated_run hbefore hrun).ingest hpast hstep).2 mac entry, fun day hother => ?_⟩
  exact otherDays_step hother mac

-- ---------------------------------------------------------------------------
-- The day that is kept
-- ---------------------------------------------------------------------------

omit [Unicode] in
theorem keepDays_of_le {days : Entries} (h : days.length ≤ 120) : keepDays days = days := by
  rw [keepDays, List.filter_eq_self]
  intro entry hentry
  have hkey : entry.1 ∈ Dict.keys days := List.mem_map_of_mem hentry
  have hlength : ((Dict.keys days).mergeSort fun a b => decide (a ≤ b)).length ≤ 120 := by
    rwa [List.length_mergeSort, Dict.keys, List.length_map]
  have hcap : Logs.cap 120 ((Dict.keys days).mergeSort fun a b => decide (a ≤ b)) =
      (Dict.keys days).mergeSort fun a b => decide (a ≤ b) := by
    rw [Logs.cap, Nat.sub_eq_zero_of_le hlength, List.drop_zero]
  rw [hcap]
  exact List.contains_iff_mem.mpr ((List.mergeSort_perm _ _).mem_iff.mpr hkey)

omit [Unicode] in
def daysOf (rollups : Json) : Entries := asDict (get (asDict rollups) "days")

omit [Unicode] in
theorem length_set_le (d : Entries) (key : String) (v : Json) :
    (Dict.set d key v).length ≤ d.length + 1 := by
  have hkeys := congrArg List.length (Dict.keys_set d key v)
  rw [Dict.keys, List.length_map] at hkeys
  rw [hkeys]
  split
  · rw [Dict.keys, List.length_map]
    omega
  · rw [List.length_append, Dict.keys, List.length_map, List.length_singleton]

theorem length_daysOf_le (c : Clock) (current previous : List (String × Entries)) (rollups : Json) :
    (daysOf (updateRollup c current previous rollups)).length ≤ (daysOf rollups).length + 1 :=
  (List.length_filter_le _ _).trans (length_set_le _ _ _)

theorem dayEntries_today {c : Clock} {current previous : List (String × Entries)} {rollups : Json}
    (h : (daysOf rollups).length < 120) :
    dayEntries (updateRollup c current previous rollups) c.day =
      (previous.filter fun entry => (Dict.get? current entry.1).isNone).foldl
        (fun entries (mac, old) =>
          Dict.set entries mac (.dict (rollupOffline c mac (asDict (get entries mac)) old)))
        (current.foldl (fun entries (mac, device) =>
          Dict.set entries mac (.dict (rollupOnline c mac (asDict (get entries mac)) device)))
          (dayEntries rollups c.day)) := by
  have hdays : ∀ days : Entries, get (asDict (.dict [("version", .int 2), ("days", .dict days),
      ("updatedAt", .str c.stamp)])) "days" = .dict days := fun _ => rfl
  have hall : ∀ dayRow, keepDays (Dict.set (asDict (get (asDict rollups) "days")) c.day dayRow) =
      Dict.set (asDict (get (asDict rollups) "days")) c.day dayRow := fun dayRow =>
    keepDays_of_le ((length_set_le _ _ _).trans (by rw [daysOf] at h; omega))
  rw [updateRollup, dayEntries, hdays, asDict_dict]
  dsimp only
  rw [hall, get_set, if_pos rfl, asDict_dict, get_set, if_pos rfl]
  rfl

def onlineRows (r : Reading) (s : DurableDeviceHistory) (e : Ingestion) : List Entries :=
  match collect r e.clock s.documents.daily e.snapshot with
  | .error _ => []
  | .ok (online, _, _) => online

theorem rollups_step {r : Reading} {s : DurableDeviceHistory} {e : Ingestion}
    (haccepted : (ingest r e.clock e.snapshot s).1.isAccepted = true) :
    (step r s e).documents.rollups =
      updateRollup e.clock (deviceMap (hydratedRows e.clock s.documents (onlineRows r s e)))
        (previousOnline s.documents.devices) s.documents.rollups := by
  rcases hstep : Devices.ingest r e.clock e.snapshot s with ⟨outcome, s'⟩
  have hs' : step r s e = s' := by rw [step, hstep]
  rw [hstep] at haccepted
  rw [hs']
  obtain ⟨message, -, rfl, -⟩ | ⟨total, daily, -, hrejected, -⟩ |
    ⟨online, total, daily, hcollect, -, hdocuments⟩ := ingest_cases hstep
  · cases haccepted
  · rw [haccepted] at hrejected
    cases hrejected
  · rw [hdocuments, onlineRows, hcollect, rollups_accept]

end

section

local instance asciiMidnight : Unicode := .ascii

def midnightReading : Reading := ⟨fun _ => .error "no text", fun _ => none⟩

def connected (mac : String) (seconds : Int) : Snapshot :=
  .payload (.dict [("list", .list [.dict [("mac", .str mac), ("activeTime", .int seconds)]])])

/-- Late in the evening. -/
def evening : Ingestion :=
  ⟨⟨⟨2026, 1, 1, 23, 50, 0, rfl⟩, 1767311400⟩, connected "aa:bb:cc:dd:ee:01" 80000⟩

/-- Five minutes later, or twenty, another device is there instead. -/
def lateEvening : Ingestion :=
  ⟨⟨⟨2026, 1, 1, 23, 55, 0, rfl⟩, 1767311700⟩, connected "aa:bb:cc:dd:ee:02" 60⟩

def afterMidnight : Ingestion :=
  ⟨⟨⟨2026, 1, 2, 0, 10, 0, rfl⟩, 1767312600⟩, connected "aa:bb:cc:dd:ee:02" 60⟩

theorem seconds_within_day_evening :
    storedSeconds (run (step midnightReading) {} ([evening] ++ [lateEvening])).documents.rollups
        lateEvening.clock.day "aa:bb:cc:dd:ee:01" ≤ lateEvening.clock.now.secondOfDay ∧
      ∀ day ≠ lateEvening.clock.day,
        Dict.get? (dayEntries (run (step midnightReading) {}
            ([evening] ++ [lateEvening])).documents.rollups day) "aa:bb:cc:dd:ee:01" =
          Dict.get? (dayEntries (run (step midnightReading) {} [evening]).documents.rollups day)
            "aa:bb:cc:dd:ee:01" ∨
        dayEntries (run (step midnightReading) {}
          ([evening] ++ [lateEvening])).documents.rollups day = [] := by
  refine seconds_within_day ?_ ?_ _
  · rw [List.singleton_append, List.pairwise_pair]
    exact ⟨by decide, fun _ => by decide +kernel⟩
  · decide +kernel

/-- The seconds of the evening are stored for the day that is ten minutes old. -/
theorem evening_carried :
    storedSeconds (run (step midnightReading) {} [evening, afterMidnight]).documents.rollups
        "2026-01-02" "aa:bb:cc:dd:ee:01" = 80000 ∧
      afterMidnight.clock.day = "2026-01-02" ∧ afterMidnight.clock.now.secondOfDay = 600 := by
  refine ⟨?_, by decide, by decide⟩
  have hday : afterMidnight.clock.day = "2026-01-02" := by decide
  have hfirst := rollups_step (r := midnightReading) (s := {}) (e := evening) rfl
  have hsecond := rollups_step (r := midnightReading) (s := step midnightReading {} evening)
    (e := afterMidnight) rfl
  have hfew : (daysOf (step midnightReading {} evening).documents.rollups).length < 120 := by
    rw [hfirst]
    exact lt_of_le_of_lt (length_daysOf_le _ _ _ _) (by decide)
  have hnone : dayEntries (step midnightReading {} evening).documents.rollups
      afterMidnight.clock.day = [] := by
    rw [hfirst]
    rcases dayEntries_updateRollup evening.clock _ _ _ afterMidnight.clock.day with hnone | hother
    · exact hnone
    · rw [hother, if_neg (by decide)]
      rfl
  rw [run_cons, run_cons, run_nil, hsecond, ← hday]
  delta storedSeconds
  rw [dayEntries_today hfew, hnone]
  decide +kernel

end

end LabProbe.Devices
