import LabProbe.Devices.Addresses
import LabProbe.Lib.Presence

/-!
# Snapshot after snapshot

The events of a snapshot are the changes between the devices that the
document said were online and those of the snapshot. The events of each
address alternate, and the last one says whether its device is online.
-/

namespace LabProbe.Devices

open Py Py.Json Hub Presence

section
variable [Unicode]

-- ---------------------------------------------------------------------------
-- Events
-- ---------------------------------------------------------------------------

omit [Unicode] in
def told (event : Entries) : String × Bool :=
  ((match get event "mac" with
    | .str mac => mac
    | _ => ""), (get event "type").eq (.str "device_online"))

theorem told_transitionEvent (c : Clock) (online : Bool) (device previous : Entries) :
    told (transitionEvent c online device previous) =
      (normMac ((get device "mac").or (get previous "mac")), online) := by
  have htype : get (transitionEvent c online device previous) "type" =
      .str (if online then "device_online" else "device_offline") := rfl
  have hmac : get (transitionEvent c online device previous) "mac" =
      .str (normMac ((get device "mac").or (get previous "mac"))) := rfl
  rw [told, hmac, htype]
  cases online
  · simp [Json.eq_apply]
  · simp

theorem truthy_of_rowMac {row : Entries} (h : rowMac row ≠ "") : (get row "mac").truthy = true := by
  by_contra hfalsy
  rw [Bool.not_eq_true] at hfalsy
  exact h (by rw [rowMac, normMac, hfalsy]; rfl)

theorem told_missing {rows others : List Entries} {event : Entries → Entries} {online : Bool}
    (h : ∀ row, (get row "mac").truthy = true → told (event row) = (rowMac row, online)) :
    (((deviceMap rows).filter fun entry => (Dict.get? (deviceMap others) entry.1).isNone).map
      fun entry => event entry.2).map told = ((macs rows).filter (· ∉ macs others)).map (·, online) := by
  have hmissing : ∀ entry : String × Entries,
      (Dict.get? (deviceMap others) entry.1).isNone = decide (entry.1 ∉ macs others) := by
    intro entry
    rw [Bool.eq_iff_iff, Option.isNone_iff_eq_none, Dict.get?_eq_none, decide_eq_true_iff]
    rfl
  have hkeys : (macs rows).filter (· ∉ macs others) =
      ((deviceMap rows).filter fun entry => entry.1 ∉ macs others).map Prod.fst := List.filter_map
  rw [hkeys, List.map_map, List.map_map, List.filter_congr fun entry _ => hmissing entry]
  refine List.map_congr_left fun entry hentry => ?_
  obtain ⟨hmac, hne⟩ := deviceMap_entry (List.mem_filter.mp hentry).1
  exact (h entry.2 (truthy_of_rowMac (hmac.trans_ne hne))).trans (Prod.ext hmac rfl)

theorem told_transitionEvents (c : Clock) (rows previous : List Entries) :
    (transitionEvents c (deviceMap rows) (deviceMap previous)).map told =
      changes (macs previous) (macs rows) := by
  rw [transitionEvents, List.map_append, changes]
  congr 1
  · refine @told_missing _ rows previous (fun row => transitionEvent c true row []) true
      fun row htruthy => ?_
    rw [told_transitionEvent, or_of_truthy htruthy]
    rfl
  · refine @told_missing _ previous rows (fun row => transitionEvent c false (offlineRow c row) row)
      false fun row htruthy => ?_
    rw [told_transitionEvent, get_mac_offlineRow, or_of_truthy htruthy]
    rfl

omit [Unicode] in
theorem told_addEvents {events added : List Entries} {log : List (String × Bool)}
    (h : events.map told = Logs.cap 1000 log) :
    (added.foldl addEvent events).map told = Logs.cap 1000 (log ++ added.map told) := by
  induction added generalizing events log with
  | nil => simpa using h
  | cons event added ih =>
    have hevent : (addEvent events event).map told = Logs.cap 1000 (log ++ [told event]) := by
      have hnumbered : ∀ id : Json,
          told (Dict.set (Dict.set event "id" id) "level" (.str "normal")) = told event := by
        intro id
        simp only [told, get_set]
        rfl
      rw [addEvent, Logs.map_cap, List.map_append, h, List.map_singleton, hnumbered,
        Logs.cap_cap_append]
    rw [List.foldl_cons, ih hevent, List.append_assoc]
    rfl

-- ---------------------------------------------------------------------------
-- Runs
-- ---------------------------------------------------------------------------

def recorded (r : Reading) (c : Clock) (snapshot : Snapshot) (s : DurableDeviceHistory) :
    List Entries :=
  match collect r c s.documents.daily snapshot with
  | .error _ => []
  | .ok (online, _, _) =>
    if (ingest r c snapshot s).1.isAccepted then
      transitionEvents c (deviceMap (hydratedRows c s.documents online))
        (previousOnline s.documents.devices)
    else []

/-- Snapshots one after the other from an empty store, each with a property;
`log` holds all events recorded. -/
inductive Ingested (r : Reading) (P : Snapshot → Prop) : DurableDeviceHistory → List Entries → Prop
  | start : Ingested r P {} []
  | ingest {s : DurableDeviceHistory} {log : List Entries} (c : Clock) {snapshot : Snapshot}
      (hsnapshot : P snapshot) (h : Ingested r P s log) :
      Ingested r P (ingest r c snapshot s).2 (log ++ recorded r c snapshot s)

structure Told (s : DurableDeviceHistory) (log : List Entries) : Prop where
  kept : s.documents.events.map told = Logs.cap 1000 (log.map told)
  tells : Tells (log.map told) (onlineMacs s.documents.devices)

theorem told_recorded {r : Reading} {c : Clock} {snapshot : Snapshot} {s s' : DurableDeviceHistory}
    {outcome : Outcome} {online : List Entries} {total : Int} {daily : Json}
    (hstep : ingest r c snapshot s = (outcome, s')) (haccepted : outcome.isAccepted = true)
    (hcollect : collect r c s.documents.daily snapshot = .ok (online, total, daily)) :
    recorded r c snapshot s = transitionEvents c (deviceMap (hydratedRows c s.documents online))
        (previousOnline s.documents.devices) ∧
      (recorded r c snapshot s).map told =
        changes (onlineMacs s.documents.devices) (macs (hydratedRows c s.documents online)) := by
  have hadded : recorded r c snapshot s = transitionEvents c
      (deviceMap (hydratedRows c s.documents online)) (previousOnline s.documents.devices) := by
    rw [recorded, hcollect, hstep]
    exact if_pos haccepted
  refine ⟨hadded, ?_⟩
  rw [hadded]
  exact told_transitionEvents c _ _

theorem Told.snapshot {r : Reading} {c : Clock} {snapshot : Snapshot} {s : DurableDeviceHistory}
    {log : List Entries} (h : Told s log) (hshort : ShortAddresses r snapshot) :
    Told (ingest r c snapshot s).2 (log ++ recorded r c snapshot s) := by
  rcases hstep : ingest r c snapshot s with ⟨outcome, s'⟩
  dsimp only
  have hkeep : s'.documents.events = s.documents.events → s'.documents.devices = s.documents.devices →
      recorded r c snapshot s = [] → Told s' (log ++ recorded r c snapshot s) := by
    intro hevents hdevices hnone
    rw [hnone, List.append_nil]
    exact ⟨hevents ▸ h.kept, hdevices ▸ h.tells⟩
  obtain ⟨message, hcollect, -, hdocuments⟩ | ⟨total, daily, hcollect, hrejected, hdocuments⟩ |
    ⟨online, total, daily, hcollect, haccepted, hdocuments⟩ := ingest_cases hstep
  · exact hkeep (by rw [hdocuments]) (by rw [hdocuments]) (by rw [recorded, hcollect])
  · refine hkeep (by rw [hdocuments]) (by rw [hdocuments]) ?_
    rw [recorded, hcollect, hstep]
    exact if_neg (by simp [hrejected])
  · obtain ⟨hadded, htold⟩ := told_recorded hstep (by rw [haccepted]; rfl) hcollect
    constructor
    · rw [hdocuments, List.map_append, hadded]
      exact told_addEvents h.kept
    · rw [hdocuments, onlineMacs_accept (collect_short hshort hcollect), List.map_append, htold]
      exact h.tells.look (nodup_macs _) (nodup_macs _)

theorem Ingested.told {r : Reading} {s : DurableDeviceHistory} {log : List Entries}
    (h : Ingested r (ShortAddresses r) s log) : Told s log := by
  induction h with
  | start => exact ⟨rfl, .nil⟩
  | ingest c hshort _ ih => exact ih.snapshot hshort

/-- What events tell of one address, in order. -/
def kindsOf (mac : String) (events : List Entries) : List Bool := ofKey mac (events.map told)

/-- Of each address, the events recorded alternate and the last one says
whether its device is online; so do those that the document still holds. -/
theorem device_events_fold {r : Reading} {s : DurableDeviceHistory} {log : List Entries}
    (h : Ingested r (ShortAddresses r) s log) (mac : String) :
    ((kindsOf mac log).IsChain (· ≠ ·) ∧
      ((kindsOf mac log).getLast? = some true ↔ mac ∈ onlineMacs s.documents.devices)) ∧
    ((kindsOf mac s.documents.events).IsChain (· ≠ ·) ∧
      ∀ online, (kindsOf mac s.documents.events).getLast? = some online →
        (online = true ↔ mac ∈ onlineMacs s.documents.devices)) := by
  obtain ⟨hkept, htells⟩ := h.told
  have hsuffix : s.documents.events.map told <:+ log.map told := by
    rw [hkept]
    exact Logs.cap_suffix _ _
  exact ⟨⟨htells.alternates mac, htells.last mac⟩, htells.suffix_alternates hsuffix mac,
    fun online hlast => htells.suffix_last hsuffix hlast⟩

theorem macs_single {row : Entries} {mac : String} (h : rowMac row = mac) (hne : mac ≠ "") :
    macs [row] = [mac] := by
  have hmac : normMac (get row "mac") = mac := h
  simp [macs, deviceMap, hmac, hne, Dict.ofEntries, Dict.set, Dict.keys]

end

-- ---------------------------------------------------------------------------
-- A long address
-- ---------------------------------------------------------------------------

section

local instance asciiFold : Unicode := .ascii

def oneDevice (mac : String) : Snapshot :=
  .payload (.dict [("list", .list [.dict [("mac", .str mac)]])])

def foldReading : Reading := ⟨fun _ => .error "no text", fun _ => none⟩

def foldClock : Clock := ⟨⟨2026, 1, 1, 8, 0, 0, rfl⟩, 1767254400⟩

theorem collect_oneDevice {mac : String} (hmac : normMac (.str mac) = mac) (hne : mac ≠ "")
    (daily : Json) : ∃ row total daily', collect foldReading foldClock daily (oneDevice mac) =
      .ok ([row], total, daily') ∧ get row "mac" = .str mac := by
  have hitems : payloadItems (.dict [("list", .list [.dict [("mac", .str mac)]])]) =
      .ok [[("mac", .str mac)]] := by
    have hkeep : normMac (get [("mac", .str mac)] "mac") = mac := hmac
    simp [payloadItems, getD, Dict.get?, List.filterMap, dict?, List.filter, hkeep, hne]
  have hparse : ∃ total, parseDevices foldReading foldClock
      (.dict [("list", .list [.dict [("mac", .str mac)]])]) =
        .ok ([deviceRow foldClock [("mac", .str mac)]], total) :=
    ⟨_, Check.bind_eq_ok.mpr ⟨_, rfl, Check.bind_eq_ok.mpr ⟨_, hitems,
      Check.bind_eq_ok.mpr ⟨[deviceRow foldClock [("mac", .str mac)]], rfl, rfl⟩⟩⟩⟩
  obtain ⟨total, hparse⟩ := hparse
  obtain ⟨row, hrow⟩ : ∃ row, (updateDailyOnlineDurations foldClock
      [deviceRow foldClock [("mac", .str mac)]] daily).1 = [row] := ⟨_, rfl⟩
  have hmacRow : get row "mac" = .str mac := by
    have hmem : row ∈ (updateDailyOnlineDurations foldClock
        [deviceRow foldClock [("mac", .str mac)]] daily).1 := hrow ▸ List.mem_singleton_self row
    obtain ⟨device, hdevice, hget⟩ := mem_markDurations hmem
    rw [hget, List.mem_singleton.mp hdevice]
    exact congrArg Json.str hmac
  refine ⟨row, total, (updateDailyOnlineDurations foldClock
    [deviceRow foldClock [("mac", .str mac)]] daily).2, Check.bind_eq_ok.mpr ⟨_, hparse, ?_⟩, hmacRow⟩
  dsimp only
  rw [hrow]

theorem ingest_oneDevice {mac : String} (hmac : normMac (.str mac) = mac) (hne : mac ≠ "")
    (s : DurableDeviceHistory) :
    (recorded foldReading foldClock (oneDevice mac) s).map told =
        changes (onlineMacs s.documents.devices) [mac] ∧
      onlineMacs (ingest foldReading foldClock (oneDevice mac) s).2.documents.devices =
        macs [[("mac", compact (.str mac))]] := by
  obtain ⟨row, total, daily, hcollect, hrow⟩ := collect_oneDevice hmac hne s.documents.daily
  rcases hstep : ingest foldReading foldClock (oneDevice mac) s with ⟨outcome, s'⟩
  have hhydrated : rowMac (onlineRow foldClock (asDict s.documents.archive) row) = mac := by
    rw [rowMac, get_mac_onlineRow, hrow, hmac]
  obtain ⟨_, hother, -⟩ | ⟨_, _, hother, -⟩ | ⟨online, total', daily', hsame, haccepted, hdocuments⟩ :=
    ingest_cases hstep
  · rw [hcollect] at hother
    cases hother
  · rw [hcollect] at hother
    cases (Prod.mk.inj (Except.ok.inj hother)).1
  · obtain rfl : [row] = online := by
      rw [hcollect] at hsame
      exact (Prod.mk.inj (Except.ok.inj hsame)).1
    obtain ⟨-, htold⟩ := told_recorded hstep (by rw [haccepted]; rfl) hcollect
    constructor
    · rw [htold]
      exact congrArg _ (macs_single hhydrated hne)
    · rw [hdocuments, onlineMacs, documentRows_accept]
      refine macs_congr ?_
      simp only [hydratedRows, List.map_cons, List.map_nil, rowMac]
      rw [get_compactEntries (by decide), get_mac_onlineRow, hrow]
      rfl

def longMac (n : Nat) : String := String.ofList (List.replicate n 'a')

theorem normMac_longMac {n : Nat} (h : 12 < n) : normMac (.str (longMac n)) = longMac n := by
  have hlist : (longMac n).toList = List.replicate n 'a' := String.toList_ofList
  have hlower : Unicode.lower (longMac n) = longMac n := by
    change asciiLower (longMac n) = longMac n
    rw [asciiLower, hlist, List.map_replicate]
    rfl
  have hletters : ∀ c ∈ List.replicate n 'a', c = 'a' := fun c hc => List.eq_of_mem_replicate hc
  have hnotMem : ∀ c, c ≠ 'a' → c ∉ List.replicate n 'a' := fun c hne hc => hne (hletters c hc)
  have hstrip : strip (longMac n) = longMac n := by
    refine strip_of_noSpace fun c hc => ?_
    rw [hletters c (hlist ▸ hc)]
    rfl
  have hlength : (longMac n).length = n := by
    rw [← String.length_toList, hlist, List.length_replicate]
  have htruthy : (Json.str (longMac n)).truthy = true := by
    rw [truthy, bne_iff_ne]
    intro hempty
    rw [hempty] at hlength
    have hzero : "".length = 0 := rfl
    omega
  have hdashed : replaceAll ['.'] [] 0 (replaceAll ['-'] [':'] 0 (longMac n).toList) =
      (longMac n).toList := by
    rw [hlist, replaceAll_of_notMem (hnotMem '-' (by decide)),
      replaceAll_of_notMem (hnotMem '.' (by decide))]
  have hshape : (!(longMac n).toList.contains ':' && (longMac n).length == 12) = false := by
    rw [hlength, Bool.and_eq_false_iff]
    exact .inr (beq_eq_false_iff_ne.mpr (by omega))
  have htext : toStr (.str (longMac n)) = longMac n := rfl
  rw [normMac, htruthy, htext]
  dsimp only
  rw [hlower, hdashed, String.ofList_toList, hstrip, hshape]
  rfl

theorem compact_longMac {n : Nat} (h : 65536 < n) :
    compact (.str (longMac n)) = .str (longMac 65536) := by
  have hlength : 65536 < (longMac n).length := by
    rw [← String.length_toList, longMac, String.toList_ofList, List.length_replicate]
    exact h
  have htake : takeChars 65536 (longMac n) = longMac 65536 := by
    rw [takeChars, longMac, String.toList_ofList, List.take_replicate, Nat.min_eq_left h.le, longMac]
  rw [compact, if_pos hlength, htake]

theorem longMac_injective {m n : Nat} (h : longMac m = longMac n) : m = n := by
  have hlist := congrArg (fun s : String => s.toList.length) h
  simpa only [longMac, String.toList_ofList, List.length_replicate] using hlist

theorem kindsOf_longMac {n : Nat} (h : 65536 < n) : ∃ s log,
    Ingested foldReading (fun _ => True) s log ∧ kindsOf (longMac n) log = [true, true] := by
  have hne : ∀ m, 12 < m → longMac m ≠ "" := fun m hm hempty =>
    absurd (longMac_injective (n := 0) hempty) (by omega)
  have hmac := normMac_longMac (n := n) (by omega)
  obtain ⟨htold, honline⟩ := ingest_oneDevice hmac (hne n (by omega)) {}
  have hrun : Ingested foldReading (fun _ => True) _ _ :=
    @Ingested.ingest _ _ _ _ _ foldClock (oneDevice (longMac n)) trivial .start
  generalize (ingest foldReading foldClock (oneDevice (longMac n)) {}).2 = first at honline hrun
  obtain ⟨htold', -⟩ := ingest_oneDevice hmac (hne n (by omega)) first
  have hcut : onlineMacs first.documents.devices = [longMac 65536] := by
    refine honline.trans (macs_single ?_ (hne 65536 (by decide)))
    rw [compact_longMac h]
    exact normMac_longMac (by decide)
  have hrun' : Ingested foldReading (fun _ => True) _ _ :=
    @Ingested.ingest _ _ _ _ _ foldClock (oneDevice (longMac n)) trivial hrun
  refine ⟨_, _, hrun', ?_⟩
  have hnotMem : longMac n ∉ [longMac 65536] := by
    rw [List.mem_singleton]
    exact fun heq => absurd (longMac_injective heq) (by omega)
  have hempty : onlineMacs ({} : DurableDeviceHistory).documents.devices = [] := rfl
  rw [kindsOf, List.nil_append, List.map_append, htold, htold', hcut, hempty, ofKey_append,
    ofKey_changes (by simp) (by simp), ofKey_changes (by simp) (by simp), if_neg (by simp),
    if_pos (by simp), if_neg hnotMem]
  rfl

theorem long_address_repeats : ¬ ∀ (r : Reading) (s : DurableDeviceHistory) (log : List Entries),
    Ingested r (fun _ => True) s log → ∀ mac, (kindsOf mac log).IsChain (· ≠ ·) := by
  intro hall
  obtain ⟨s, log, hrun, hkinds⟩ := kindsOf_longMac (n := 65537) (by decide)
  have hchain := hall foldReading s log hrun (longMac 65537)
  rw [hkinds] at hchain
  simp at hchain

def cameraMac : String := "aa:bb:cc:dd:ee:ff"

def phoneMac : String := "11:22:33:44:55:66"

/-- The camera is there, only a phone is, and the camera is there again. -/
def cameraSnapshots : List Snapshot :=
  [oneDevice cameraMac, oneDevice phoneMac, oneDevice cameraMac]

/-- The store after some snapshots, and the events that they recorded. -/
def ingestAll (snapshots : List Snapshot) : DurableDeviceHistory × List Entries :=
  snapshots.foldl (fun run snapshot => ((ingest foldReading foldClock snapshot run.1).2,
    run.2 ++ recorded foldReading foldClock snapshot run.1)) ({}, [])

theorem ingested_ingestAll {P : Snapshot → Prop} {snapshots : List Snapshot}
    (h : ∀ snapshot ∈ snapshots, P snapshot) :
    Ingested foldReading P (ingestAll snapshots).1 (ingestAll snapshots).2 := by
  induction snapshots using List.reverseRecOn with
  | nil => exact .start
  | append_singleton snapshots snapshot ih =>
    rw [ingestAll, List.foldl_append]
    exact .ingest foldClock (h snapshot (by simp)) (ih fun other hother => h other (by simp [hother]))

theorem ingest_shortMac (mac : String) (hmem : mac ∈ [cameraMac, phoneMac])
    (s : DurableDeviceHistory) :
    (recorded foldReading foldClock (oneDevice mac) s).map told =
        changes (onlineMacs s.documents.devices) [mac] ∧
      onlineMacs (ingest foldReading foldClock (oneDevice mac) s).2.documents.devices = [mac] := by
  have hmacs : ∀ mac ∈ [cameraMac, phoneMac], normMac (.str mac) = mac ∧ mac ≠ "" ∧
      compact (.str mac) = .str mac := by decide +kernel
  obtain ⟨hmac, hne, hcompact⟩ := hmacs mac hmem
  obtain ⟨htold, honline⟩ := ingest_oneDevice hmac hne s
  refine ⟨htold, honline.trans (macs_single ?_ hne)⟩
  rw [hcompact]
  exact hmac

theorem kindsOf_camera : kindsOf cameraMac (ingestAll cameraSnapshots).2 = [true, false, true] := by
  obtain ⟨hfirst, hhere⟩ := ingest_shortMac cameraMac (by simp) {}
  generalize hs : (ingest foldReading foldClock (oneDevice cameraMac) {}).2 = s at hhere
  obtain ⟨hsecond, hgone⟩ := ingest_shortMac phoneMac (by simp) s
  generalize hs' : (ingest foldReading foldClock (oneDevice phoneMac) s).2 = s' at hgone
  obtain ⟨hthird, -⟩ := ingest_shortMac cameraMac (by simp) s'
  have hne : cameraMac ≠ phoneMac := by decide
  have hempty : onlineMacs ({} : DurableDeviceHistory).documents.devices = [] := rfl
  simp only [ingestAll, cameraSnapshots, List.foldl_cons, List.foldl_nil, hs, hs', kindsOf,
    List.map_append, hfirst, hsecond, hthird, hempty, hhere, hgone, List.nil_append]
  rw [ofKey_append, ofKey_append, ofKey_changes (by simp) (by simp),
    ofKey_changes (by simp) (by simp), ofKey_changes (by simp) (by simp)]
  simp [hne]

/-- A camera that leaves and comes back. -/
theorem device_events_fold_camera :
    kindsOf cameraMac (ingestAll cameraSnapshots).2 = [true, false, true] ∧
    ((kindsOf cameraMac (ingestAll cameraSnapshots).2).IsChain (· ≠ ·) ∧
      ((kindsOf cameraMac (ingestAll cameraSnapshots).2).getLast? = some true ↔
        cameraMac ∈ onlineMacs (ingestAll cameraSnapshots).1.documents.devices)) ∧
    ((kindsOf cameraMac (ingestAll cameraSnapshots).1.documents.events).IsChain (· ≠ ·) ∧
      ∀ online,
        (kindsOf cameraMac (ingestAll cameraSnapshots).1.documents.events).getLast? = some online →
          (online = true ↔ cameraMac ∈ onlineMacs (ingestAll cameraSnapshots).1.documents.devices)) := by
  have hshort : ∀ mac ∈ [cameraMac, phoneMac], ShortAddresses foldReading (oneDevice mac) := by
    have hlength : ∀ mac ∈ [cameraMac, phoneMac], (normMac (.str mac)).length ≤ 65536 := by
      decide +kernel
    rintro mac hmac _ ⟨⟩ item hitem
    obtain rfl : item = [("mac", .str mac)] :=
      List.mem_singleton.mp (List.mem_of_mem_filter hitem)
    exact hlength mac hmac
  have hall : ∀ snapshot ∈ cameraSnapshots, ShortAddresses foldReading snapshot := by
    simp only [cameraSnapshots, List.forall_mem_cons, List.not_mem_nil, false_imp_iff,
      implies_true, and_true]
    exact ⟨hshort _ (by simp), hshort _ (by simp), hshort _ (by simp)⟩
  exact ⟨kindsOf_camera, device_events_fold (ingested_ingestAll hall) cameraMac⟩

end

end LabProbe.Devices
