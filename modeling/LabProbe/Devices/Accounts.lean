import LabProbe.Devices.Rejected
import LabProbe.Lib.Run

/-!
# The accounts of a day

Each list of online devices adds to the seconds of its devices: the time since
the list before, if they were on it. What the router tells of a device, the
time it has been connected today, is a lower bound of its seconds.
-/

namespace LabProbe.Devices

open Py Py.Json Hub

section
variable [Unicode]

-- ---------------------------------------------------------------------------
-- One call
-- ---------------------------------------------------------------------------

/-- A call of `update_daily_online_durations`. -/
structure Call where
  clock : Clock
  devices : List Entries

def Call.macs (call : Call) : List String := Dict.keys (deviceMap call.devices)

/-- The document after a call. -/
def count (daily : Json) (call : Call) : Json :=
  (updateDailyOnlineDurations call.clock call.devices daily).2

omit [Unicode] in
def entriesOf (c : Clock) (daily : Json) : Entries := asDict (get (openDaily c daily) "devices")

/-- The seconds of the day that a device has so far. -/
def secondsOf (c : Clock) (daily : Json) (mac : String) : Int :=
  toInt (get (asDict (get (entriesOf c daily) mac)) "seconds") 0

theorem toInt_null : toInt .null 0 = 0 := by
  have htext : toStr .null = "None" := rfl
  rw [toInt, htext]
  rfl

omit [Unicode] in
theorem secondOfDay_lt (c : Clock) : c.now.secondOfDay < 86400 := by
  have hvalid := c.now.valid
  simp only [isDateTime, Bool.and_eq_true, decide_eq_true_eq] at hvalid
  simp only [DateTime.secondOfDay]
  omega

theorem toInt_seconds {n : Int} {c : Clock} (hpos : 0 ≤ n) (hbound : n ≤ c.now.secondOfDay) :
    toInt (.int n) 0 = n := by
  refine toInt_int (natAbs_lt_limit ?_) 0
  have hday := secondOfDay_lt c
  omega

theorem secondsOf_none (h : Dict.get? (entriesOf c daily) mac = none) : secondsOf c daily mac = 0 := by
  have hget : get (entriesOf c daily) mac = .null := by rw [Json.get, h, Option.getD_none]
  rw [secondsOf, hget]
  exact toInt_null

theorem secondsOf_some (h : Dict.get? (entriesOf c daily) mac = some (.dict fields)) :
    secondsOf c daily mac = toInt (get fields "seconds") 0 := by
  have hget : get (entriesOf c daily) mac = .dict fields := by rw [Json.get, h, Option.getD_some]
  rw [secondsOf, hget, asDict_dict]

def seedOf (c : Clock) (device : Entries) : Int :=
  todayOnlineSeconds c.now ((get device "raw").dict?.getD device)

omit [Unicode] in
/-- A clock that is read later on the same day, at the same offset. -/
structure Later (c d : Clock) : Prop where
  year : c.now.year = d.now.year
  month : c.now.month = d.now.month
  date : c.now.day = d.now.day
  offset : c.epoch - c.now.seconds = d.epoch - d.now.seconds
  epoch : c.epoch ≤ d.epoch

omit [Unicode] in
theorem Later.rfl (c : Clock) : Later c c := ⟨Eq.refl _, Eq.refl _, Eq.refl _, Eq.refl _, Int.le_refl _⟩

omit [Unicode] in
theorem Later.day (h : Later c d) : c.day = d.day := by
  simp only [Clock.day, DateTime.isoDate, DateTime.dateChars, h.year, h.month, h.date]

omit [Unicode] in
theorem Later.elapsed (h : Later c d) :
    (d.now.secondOfDay : Int) - c.now.secondOfDay = d.epoch - c.epoch := by
  have hordinal : c.now.toOrdinal = d.now.toOrdinal := by
    simp only [DateTime.toOrdinal, h.year, h.month, h.date]
  have hoffset := h.offset
  simp only [DateTime.seconds, hordinal] at hoffset
  omega

omit [Unicode] in
/-- The entries after a list: each was counted up to it, and is open if its
device is on the list. -/
structure Counted (c : Clock) (present : List String) (mac : String) (entry : Json) : Prop where
  exists_seconds : ∃ fields, entry = .dict fields ∧ ∃ n : Int, get fields "seconds" = .int n ∧
    0 ≤ n ∧ n ≤ c.now.secondOfDay ∧ get fields "lastSampleEpoch" = .int c.epoch ∧
    (get fields "online").truthy = decide (mac ∈ present)

/-- What a call does to the seconds of a device: `previous` are the devices
of the list before. -/
structure Accounted (previous : List String) (call : Call) (mac : String) (before after : Int) :
    Prop where
  mono : before ≤ after
  elapsed : after ≤ call.clock.now.secondOfDay
  absent : mac ∉ call.macs → after = before
  present : ∀ device, Dict.get? (deviceMap call.devices) mac = some device → ∃ growth : Int,
    0 ≤ growth ∧ growth ≤ 300 ∧ (mac ∉ previous → growth = 0) ∧
      after = max (seedOf call.clock device) (before + growth)

omit [Unicode] in
theorem get?_close (c : Clock) (present : List String) (entries : Entries) (mac : String) :
    Dict.get? (entries.map fun (mac, entry) => (mac, closeEntry c present mac entry)) mac =
      (Dict.get? entries mac).map (closeEntry c present mac) := by
  induction entries with
  | nil => rfl
  | cons entry entries ih =>
    simp only [List.map_cons, Dict.get?]
    split
    · rename_i hmac
      rw [hmac, Option.map_some]
    · exact ih

omit [Unicode] in
theorem get?_foldl_sample {present : List (String × Entries)} (hp : (Dict.keys present).Nodup)
    (f : String → Entries → Json) (entries : Entries) (mac : String) :
    Dict.get? (present.foldl (fun entries (mac, device) =>
      Dict.set entries mac (f mac device)) entries) mac =
      ((Dict.get? present mac).map (f mac)).or (Dict.get? entries mac) := by
  induction present generalizing entries with
  | nil => rfl
  | cons row rows ih =>
    obtain ⟨hrow, hrows⟩ := List.nodup_cons.mp hp
    rw [List.foldl_cons, ih hrows, Dict.get?_set]
    simp only [Dict.get?]
    split
    · rename_i hmac
      rw [Dict.get?_eq_none.mpr (hmac ▸ hrow), ← hmac]
      rfl
    · rfl

theorem nodup_call_macs (call : Call) : call.macs.Nodup := Dict.nodup_keys_ofEntries _

theorem get?_count (daily : Json) (call : Call) {d : Clock} (hd : Later call.clock d)
    (mac : String) : Dict.get? (entriesOf d (count daily call)) mac =
      ((Dict.get? (deviceMap call.devices) mac).map fun device => .dict (sampleEntry call.clock device
        (asDict (((Dict.get? (entriesOf call.clock daily) mac).map
          (closeEntry call.clock call.macs mac)).getD .null)))).or
      ((Dict.get? (entriesOf call.clock daily) mac).map (closeEntry call.clock call.macs mac)) := by
  obtain ⟨state, entries, hdocument, hdate, hdevices, hentries⟩ : ∃ state entries,
      count daily call = .dict state ∧ get state "date" = .str call.clock.day ∧
      get state "devices" = .dict entries ∧
      entries = (deviceMap call.devices).foldl (fun entries (mac, device) =>
        Dict.set entries mac (.dict (sampleEntry call.clock device (asDict (get
          ((entriesOf call.clock daily).map fun (mac, entry) =>
            (mac, closeEntry call.clock call.macs mac entry)) mac)))))
        ((entriesOf call.clock daily).map fun (mac, entry) =>
          (mac, closeEntry call.clock call.macs mac entry)) :=
    ⟨_, _, Eq.refl _, by rw [get_set, if_neg (by decide), get_set, if_neg (by decide), get_set,
      if_pos (Eq.refl _)], by
      rw [get_set, if_neg (by decide), get_set, if_pos (Eq.refl _)]
      rfl, Eq.refl _⟩
  have hopen : entriesOf d (count daily call) = entries := by
    rw [entriesOf, hdocument, openDaily, hdate, hd.day, if_pos (by simp [Json.eq_apply]),
      hdevices]
    rfl
  rw [hopen, hentries, get?_foldl_sample (nodup_call_macs call) (fun mac device =>
    .dict (sampleEntry call.clock device (asDict (get _ mac))))]
  simp only [Json.get, get?_close]

theorem seedOf_bounds (c : Clock) (device : Entries) :
    0 ≤ seedOf c device ∧ seedOf c device ≤ c.now.secondOfDay := by
  unfold seedOf todayOnlineSeconds
  dsimp only
  split
  · exact ⟨le_max_left _ _, max_le (Int.natCast_nonneg _) (min_le_left _ _)⟩
  · split
    · exact ⟨le_min (by omega) (Int.natCast_nonneg _), min_le_right _ _⟩
    · exact ⟨le_refl _, Int.natCast_nonneg _⟩

theorem countSeconds_counted {fields : Entries} {c : Clock} {previous : List String}
    (h : Counted c previous mac (.dict fields)) (hl : Later c d) (device : Entries) :
    ∃ growth : Int, 0 ≤ growth ∧ growth ≤ 300 ∧ growth ≤ d.epoch - c.epoch ∧
      (mac ∉ previous → growth = 0) ∧ countSeconds d device fields =
        max (seedOf d device) (toInt (get fields "seconds") 0 + growth) := by
  obtain ⟨_, ⟨⟩, n, hseconds, hpos, hbound, hlast, honline⟩ := h.exists_seconds
  have hepoch := hl.epoch
  -- an epoch of too many digits counts as one that is missing
  have hread := toInt_int_cases c.epoch 0
  refine ⟨if mac ∈ previous ∧ 0 < toInt (.int c.epoch) 0 then min (d.epoch - c.epoch) 300 else 0,
    ?_, ?_, ?_, ?_, ?_⟩
  · split <;> omega
  · split <;> omega
  · split <;> omega
  · intro habsent
    rw [if_neg fun hboth => habsent hboth.1]
  · have hcounted : max 0 n = n := max_eq_right hpos
    have hdelta : max 0 (d.epoch - c.epoch) = d.epoch - c.epoch := max_eq_right (by omega)
    simp only [countSeconds, seedOf, hseconds, hlast, honline, toInt_seconds hpos hbound, hcounted,
      Bool.and_eq_true, decide_eq_true_eq]
    split
    · rename_i hopen
      have hepoch : toInt (.int c.epoch) 0 = c.epoch :=
        hread.resolve_right fun hzero => absurd hopen.2 (by omega)
      rw [hepoch, hdelta]
    · rw [Int.add_zero]

theorem countSeconds_closed {daily : Json} (call : Call) {c : Clock} {previous : List String}
    (h : ∀ entry, Dict.get? (entriesOf call.clock daily) mac = some entry → Counted c previous mac entry)
    (hl : Later c call.clock) (hmem : mac ∈ call.macs) (device : Entries) :
    ∃ growth : Int, 0 ≤ growth ∧ growth ≤ 300 ∧ growth ≤ call.clock.epoch - c.epoch ∧
      (mac ∉ previous → growth = 0) ∧
      countSeconds call.clock device (asDict (((Dict.get? (entriesOf call.clock daily) mac).map
          (closeEntry call.clock call.macs mac)).getD .null)) =
        max (seedOf call.clock device) (secondsOf call.clock daily mac + growth) ∧
      0 ≤ secondsOf call.clock daily mac ∧ secondsOf call.clock daily mac ≤ c.now.secondOfDay := by
  have hepoch := hl.epoch
  cases hold : Dict.get? (entriesOf call.clock daily) mac with
  | none =>
    rw [secondsOf_none hold]
    refine ⟨0, le_refl _, by omega, by omega, fun _ => Eq.refl _, ?_, le_refl _, Int.natCast_nonneg _⟩
    have hfalse : (get [] "online").truthy = false := rfl
    have hzero : toInt (get [] "seconds") 0 = 0 := toInt_null
    have hempty : asDict ((Option.map (closeEntry call.clock call.macs mac) none).getD .null) = [] := rfl
    simp only [hempty, countSeconds, seedOf, hfalse, hzero, Bool.false_and, Bool.false_eq_true,
      if_false, Int.add_zero, max_self]
  | some entry =>
    have hcounted := h entry hold
    obtain ⟨fields, rfl, n, hseconds, hpos, hbound, -, -⟩ := hcounted.exists_seconds
    obtain ⟨growth, hgrowth, hcap, hgap, hprevious, hcount⟩ := countSeconds_counted hcounted hl device
    have hopen : closeEntry call.clock call.macs mac (.dict fields) = .dict fields := by
      rw [closeEntry, if_pos (by simpa using hmem)]
    rw [secondsOf_some hold, Option.map_some, Option.getD_some, hopen, asDict_dict]
    refine ⟨growth, hgrowth, hcap, hgap, hprevious, hcount, ?_, ?_⟩
    · rw [hseconds, toInt_seconds hpos hbound]
      exact hpos
    · rw [hseconds, toInt_seconds hpos hbound]
      exact hbound

theorem count_step {daily : Json} {call : Call} {c d : Clock} {previous : List String}
    (h : ∀ mac entry, Dict.get? (entriesOf call.clock daily) mac = some entry →
      Counted c previous mac entry) (hl : Later c call.clock) (hd : Later call.clock d)
    (mac : String) :
    (∀ entry, Dict.get? (entriesOf d (count daily call)) mac = some entry →
      Counted call.clock call.macs mac entry) ∧
    Accounted previous call mac (secondsOf call.clock daily mac) (secondsOf d (count daily call) mac) := by
  have helapsed := hl.elapsed
  have hepoch := hl.epoch
  have hget := get?_count daily call hd mac
  cases hdevice : Dict.get? (deviceMap call.devices) mac with
  | none =>
    have habsent : mac ∉ call.macs := Dict.get?_eq_none.mp hdevice
    rw [hdevice, Option.map_none, Option.none_or] at hget
    cases hold : Dict.get? (entriesOf call.clock daily) mac with
    | none =>
      rw [hold, Option.map_none] at hget
      rw [secondsOf_none hold, secondsOf_none hget, hget]
      exact ⟨fun _ hentry => (by cases hentry), le_refl _, Int.natCast_nonneg _, fun _ => Eq.refl _,
        fun _ hdevice' => by rw [hdevice] at hdevice'; cases hdevice'⟩
    | some entry =>
      obtain ⟨fields, rfl, n, hseconds, hpos, hbound, -, -⟩ := (h mac entry hold).exists_seconds
      have hclose : closeEntry call.clock call.macs mac (.dict fields) = .dict (Dict.set
          (Dict.set fields "online" (.bool false)) "lastSampleEpoch" (.int call.clock.epoch)) := by
        rw [closeEntry, if_neg (by simpa using habsent)]
      rw [hold, Option.map_some, hclose] at hget
      have hkept : get (Dict.set (Dict.set fields "online" (.bool false)) "lastSampleEpoch"
          (.int call.clock.epoch)) "seconds" = .int n := by
        rw [get_set, if_neg (by decide), get_set, if_neg (by decide), hseconds]
      rw [secondsOf_some hold, secondsOf_some hget, hseconds, hkept, toInt_seconds hpos hbound, hget]
      refine ⟨?_, le_refl _, by omega, fun _ => Eq.refl _,
        fun _ hdevice' => by rw [hdevice] at hdevice'; cases hdevice'⟩
      rintro _ ⟨⟩
      refine ⟨_, Eq.refl _, n, hkept, hpos, by omega, ?_, ?_⟩
      · rw [get_set, if_pos (Eq.refl _)]
      · rw [get_set, if_neg (by decide), get_set, if_pos (Eq.refl _), decide_eq_false habsent]
        rfl
  | some device =>
    have hmem : mac ∈ call.macs := Dict.get?_isSome.mp (by rw [hdevice]; rfl)
    rw [hdevice, Option.map_some, Option.some_or] at hget
    obtain ⟨growth, hgrowth, hcap, hgap, hprevious, hcount, hpos, hbound⟩ :=
      countSeconds_closed _ (h mac) hl hmem device
    obtain ⟨hseed, hseedBound⟩ := seedOf_bounds call.clock device
    have hafter := (secondsOf_some hget).trans
      (@toInt_seconds _ _ call.clock (by omega) (by omega))
    rw [hafter, hget]
    refine ⟨?_, by omega, by omega, fun habsent => absurd hmem habsent, ?_⟩
    · rintro _ ⟨⟩
      refine ⟨_, Eq.refl _, _, Eq.refl _, by omega, by omega, Eq.refl _, ?_⟩
      rw [decide_eq_true hmem]
      rfl
    · intro device' hdevice'
      rw [hdevice, Option.some.injEq] at hdevice'
      subst hdevice'
      exact ⟨growth, hgrowth, hcap, hprevious, hcount⟩

-- ---------------------------------------------------------------------------
-- The calls of a day
-- ---------------------------------------------------------------------------

omit [Unicode] in
/-- The document is of the day of a clock. -/
def OfDay (c : Clock) (daily : Json) : Prop :=
  ∃ state, daily = .dict state ∧ Dict.get? state "date" = some (.str c.day)

/-- The devices of the list before, none before the first one of a day. -/
def previousMacs (calls : List Call) : List String := (calls.getLast?.map Call.macs).getD []

omit [Unicode] in
theorem entriesOf_other (h : ¬ OfDay c daily) : entriesOf c daily = [] := by
  cases daily with
  | dict state =>
    have hdate : (get state "date").eq (.str c.day) = false := by
      rw [Bool.eq_false_iff]
      intro hdate
      have hvalue := eq_of_eq_str hdate
      refine h ⟨state, Eq.refl _, ?_⟩
      cases hfield : Dict.get? state "date" <;> simp_all [Json.get]
    rw [entriesOf, openDaily, hdate]
    rfl
  | _ => rfl

theorem counted_run {stored : Json} {calls : List Call} {d : Clock}
    (hcalls : calls.Pairwise fun a b => Later a.clock b.clock)
    (hd : ∀ call ∈ calls, Later call.clock d) (hstored : ¬ OfDay d stored) :
    ∃ c, Later c d ∧ ∀ mac entry,
      Dict.get? (entriesOf d (Runs.run count stored calls)) mac = some entry →
        Counted c (previousMacs calls) mac entry := by
  induction calls using List.reverseRecOn generalizing d with
  | nil =>
    refine ⟨d, Later.rfl d, fun mac entry hentry => ?_⟩
    rw [Runs.run_nil, entriesOf_other hstored] at hentry
    cases hentry
  | append_singleton calls last ih =>
    obtain ⟨hbefore, -, hlast⟩ := List.pairwise_append.mp hcalls
    have hnow : Later last.clock d := hd last (by simp)
    have hstored' : ¬ OfDay last.clock stored := by rwa [OfDay, hnow.day]
    obtain ⟨c, hc, hcounted⟩ :=
      ih hbefore (fun call hcall => hlast call hcall last (by simp)) hstored'
    refine ⟨last.clock, hnow, fun mac => ?_⟩
    rw [Runs.run_append, previousMacs, List.getLast?_concat]
    exact (count_step hcounted hc hnow mac).1

/-- At every call of a day the seconds of each device never decrease, stay
within the day so far, and become the greater of what the router tells and
what they were with at most 300 added, nothing for a device that was absent. -/
theorem accounted_run {stored : Json} {calls : List Call} {call : Call}
    (hday : (calls ++ [call]).Pairwise fun a b => Later a.clock b.clock)
    (hstored : ¬ OfDay call.clock stored) (mac : String) :
    Accounted (previousMacs calls) call mac
      (secondsOf call.clock (Runs.run count stored calls) mac)
      (secondsOf call.clock (Runs.run count stored (calls ++ [call])) mac) := by
  obtain ⟨hbefore, -, hlast⟩ := List.pairwise_append.mp hday
  obtain ⟨c, hc, hcounted⟩ := counted_run hbefore
    (fun a ha => hlast a ha call (by simp)) hstored
  rw [Runs.run_append]
  exact (count_step hcounted hc (Later.rfl _) mac).2

end

section

local instance asciiAccounts : Unicode := .ascii

/-- The lists of two minutes: a device comes online, connected for 1000 seconds. -/
def accountsCalls : List Call × Call :=
  ([⟨morning, []⟩],
    ⟨⟨⟨2026, 1, 1, 8, 1, 0, rfl⟩, 1767254460⟩,
      [[("mac", .str "aa:bb:cc:dd:ee:01"), ("activeTime", .int 1000)]]⟩)

theorem accounted_run_minute :
    Accounted (previousMacs accountsCalls.1) accountsCalls.2 "aa:bb:cc:dd:ee:01"
      (secondsOf accountsCalls.2.clock (Runs.run count (.dict []) accountsCalls.1) "aa:bb:cc:dd:ee:01")
      (secondsOf accountsCalls.2.clock (Runs.run count (.dict []) (accountsCalls.1 ++ [accountsCalls.2]))
        "aa:bb:cc:dd:ee:01") := by
  refine accounted_run ?_ ?_ _
  · rw [accountsCalls, List.singleton_append, List.pairwise_pair]
    exact ⟨rfl, rfl, rfl, by decide +kernel, by decide⟩
  · rintro ⟨_, ⟨⟩, hdate⟩
    cases hdate

/-- A device that was absent gains all the time its router tells of. -/
theorem seed_gained :
    "aa:bb:cc:dd:ee:01" ∉ previousMacs accountsCalls.1 ∧
      secondsOf accountsCalls.2.clock (Runs.run count (.dict []) accountsCalls.1)
        "aa:bb:cc:dd:ee:01" = 0 ∧
      secondsOf accountsCalls.2.clock (Runs.run count (.dict []) (accountsCalls.1 ++ [accountsCalls.2]))
        "aa:bb:cc:dd:ee:01" = 1000 := by
  decide +kernel

end

end LabProbe.Devices
