import LabProbe.Devices.Addresses
import LabProbe.Py.Doubles

/-!
# Traffic counters

The summary of a day keeps, for each device and direction, the last reading
of the router's counter and the traffic so far. A counter that is smaller
than before has started anew, and its reading is traffic of its own.

Both numbers go through `_integer` when they are read back, which reads them
as doubles.
-/

namespace LabProbe.Devices

open Py Py.Json Hub

-- ---------------------------------------------------------------------------
-- The counters of an entry
-- ---------------------------------------------------------------------------

inductive Counter where
  | upload
  | download
  deriving DecidableEq

def Counter.lastKey : Counter → String
  | .upload => "lastUploadCounter"
  | .download => "lastDownloadCounter"

def Counter.totalKey : Counter → String
  | .upload => "uploadBytes"
  | .download => "downloadBytes"

def Counter.sources : Counter → List String
  | .upload => ["todayUpload", "dailyUpBytes"]
  | .download => ["todayDownload", "dailyDownBytes"]

section
variable [Unicode]

def trafficCounter (row : Entries) : List String → Int
  | [] => 0
  | key :: keys =>
    match Dict.get? row key with
    | some value =>
      if value.eq .null || value.eq (.str "") then trafficCounter row keys else integer value
    | none => trafficCounter row keys

def advanceCounter (counter : Counter) (current : Int) (entry : Entries) : Entries :=
  let last := integer (get entry counter.lastKey)
  let total := integer (get entry counter.totalKey)
  let total :=
    if last ≤ 0 then max total current
    else if last ≤ current then total + (current - last)
    else total + current
  Dict.set (Dict.set entry counter.lastKey (.int current)) counter.totalKey (.int total)

/-- What a snapshot says of a device: that it is online, or that it has gone. -/
inductive Sighting where
  | online (clock : Clock) (device : Entries)
  | gone (clock : Clock) (old : Entries)

/-- The reading of a counter in a sighting. -/
def Sighting.reading (counter : Counter) : Sighting → Option Int
  | .online _ device => some (trafficCounter device counter.sources)
  | .gone _ _ => none

/-- `_update_rollup`, for the entry of one device. -/
def see (mac : String) (entry : Entries) : Sighting → Entries
  | .online c device =>
    advanceCounter .download (trafficCounter device Counter.download.sources)
      (advanceCounter .upload (trafficCounter device Counter.upload.sources)
        (rollupOnline c mac entry device))
  | .gone c old => rollupOffline c mac entry old

omit [Unicode] in
/-- The traffic that an entry tells. -/
def trafficOf (counter : Counter) (entry : Entries) : Int :=
  match get entry counter.totalKey with
  | .int n => n
  | _ => 0

-- ---------------------------------------------------------------------------
-- The traffic of a sequence of readings
-- ---------------------------------------------------------------------------

omit [Unicode] in
/-- What a reading adds: all of it where the counter has started anew. -/
def increase (last current : Int) : Int := if current < last then current else current - last

omit [Unicode] in
/-- The sum of the increases from one reading to the next. -/
def traffic (last : Int) : List Int → Int
  | [] => 0
  | current :: readings => increase last current + traffic current readings

/-- A number as it is read back from an entry. -/
def readBack (n : Int) : Int := integer (.int n)

/-- No reading of zero has a positive one after it while there is traffic,
unless rounding makes up for it, and every other total is read back as it is. -/
def Kept (last total : Int) : List Int → Prop
  | [] => True
  | current :: readings =>
    (if last = 0 ∧ 0 < current then total = 0 ∨ readBack total = total + current
      else readBack total = total) ∧ Kept current (total + increase last current) readings

instance Kept.decidable : (last total : Int) → (readings : List Int) →
    Decidable (Kept last total readings)
  | _, _, [] => isTrue trivial
  | last, total, current :: readings =>
    haveI := Kept.decidable current (total + increase last current) readings
    inferInstanceAs (Decidable (_ ∧ _))

-- ---------------------------------------------------------------------------
-- Numbers that are read back
-- ---------------------------------------------------------------------------

theorem integer_nonneg (v : Json) : 0 ≤ integer v := le_max_left _ _

omit [Unicode] in
theorem strip_toString (n : Nat) : strip (toString n) = toString n := by
  refine strip_of_noSpace fun c hc => ?_
  have htext : (toString n).toList = Nat.toDigits 10 n := Nat.toList_repr
  rw [htext] at hc
  exact isSpace_of_isDigit (isDigit_toDigits c hc)

theorem readBack_natCast (n : Nat) :
    readBack n = max 0 (((toDouble n).map truncate).getD 0) := by
  have htext : toStr (.int (n : Int)) = toString n := rfl
  rw [readBack, integer, htext, strip_toString, parseFloat_natCast]

theorem readBack_exact {n : Nat} (h : Exact n) : readBack n = n := by
  have hpos : ¬ (n : Rat) < 0 := not_lt.mpr (Nat.cast_nonneg _)
  have hfloor : (n : Rat).floor = n := Rat.floor_intCast n
  rw [readBack_natCast, toDouble_exact h, Option.map_some, Option.getD_some, truncate, if_neg hpos,
    hfloor]
  exact max_eq_right (Int.natCast_nonneg _)

theorem readBack_eq {n : Int} (h : 0 ≤ n) (hn : n < 2 ^ 53) : readBack n = n := by
  obtain ⟨m, rfl⟩ := Int.eq_ofNat_of_zero_le h
  exact readBack_exact (exact_natCast (by omega))

theorem readBack_zero : readBack 0 = 0 := readBack_eq (le_refl 0) (by norm_num)

theorem readBack_integer (v : Json) : readBack (integer v) = integer v := by
  rcases hfloat : parseFloat (strip v.toStr) with _ | q
  · have hzero : integer v = 0 := by rw [integer, hfloat]; rfl
    rw [hzero, readBack_zero]
  · have hvalue : integer v = max 0 (truncate q) := by
      rw [integer, hfloat, Option.map_some, Option.getD_some]
    obtain ⟨size, hsize, rfl | rfl⟩ := exact_parseFloat hfloat
    · have hnot : ¬ q < 0 := not_lt.mpr hsize.nonneg
      have hfloor : 0 ≤ q.floor := Rat.le_floor_iff.mpr (by push_cast; exact hsize.nonneg)
      rw [hvalue, truncate, if_neg hnot, max_eq_right hfloor]
      obtain ⟨n, hn⟩ := Int.eq_ofNat_of_zero_le hfloor
      have hexact := hsize.floor
      rw [hn] at hexact ⊢
      exact readBack_exact (by exact_mod_cast hexact)
    · have hzero : integer v = 0 := by
        rw [hvalue, max_eq_left_iff]
        unfold truncate
        split
        · exact Rat.ceil_le_iff.mpr (by push_cast; linarith [hsize.nonneg])
        · have hsize0 : size = 0 := by linarith [hsize.nonneg, not_lt.mp ‹¬ -size < 0›]
          rw [hsize0, neg_zero]
          exact le_refl _
      rw [hzero, readBack_zero]

theorem readBack_trafficCounter (row : Entries) (keys : List String) :
    readBack (trafficCounter row keys) = trafficCounter row keys ∧ 0 ≤ trafficCounter row keys := by
  induction keys with
  | nil => exact ⟨readBack_zero, le_refl 0⟩
  | cons key keys ih =>
    rw [trafficCounter]
    split
    · split
      · exact ih
      · exact ⟨readBack_integer _, integer_nonneg _⟩
    · exact ih

-- ---------------------------------------------------------------------------
-- One sighting
-- ---------------------------------------------------------------------------

structure Telling (counter : Counter) (entry : Entries) (last total : Int) : Prop where
  read : integer (get entry counter.lastKey) = last
  nonneg : 0 ≤ last
  tells : trafficOf counter entry = total
  back : integer (get entry counter.totalKey) = readBack total

theorem telling_nil (counter : Counter) : Telling counter [] 0 0 where
  read := by
    have htext : toStr .null = "None" := rfl
    have hget : get [] counter.lastKey = .null := rfl
    rw [hget, integer, htext]
    decide
  nonneg := le_refl 0
  tells := by cases counter <;> rfl
  back := by
    have htext : toStr .null = "None" := rfl
    have hget : get [] counter.totalKey = .null := rfl
    rw [hget, integer, htext, readBack_zero]
    decide

theorem Telling.congr (h : Telling counter entry last total)
    (hlast : get entry' counter.lastKey = get entry counter.lastKey)
    (htotal : get entry' counter.totalKey = get entry counter.totalKey) :
    Telling counter entry' last total where
  read := by rw [hlast, h.read]
  nonneg := h.nonneg
  tells := by rw [trafficOf, htotal, ← h.tells, trafficOf]
  back := by rw [htotal, h.back]

omit [Unicode] in
theorem keys_ne (counter : Counter) : counter.lastKey ≠ counter.totalKey := by
  cases counter <;> decide

/-- A reading is told, with its traffic if and only if the total before is
kept and, unless it is the first, the reading before it was not zero. -/
theorem Telling.advance (h : Telling counter entry last total) (hback : readBack current = current)
    (hcurrent : 0 ≤ current) (htotal : 0 ≤ total) : ∃ total',
    Telling counter (advanceCounter counter current entry) current total' ∧
      (total' = total + increase last current ↔
        if last = 0 ∧ 0 < current then total = 0 ∨ readBack total = total + current
        else readBack total = total) := by
  have hnonneg : 0 ≤ readBack total := integer_nonneg _
  refine ⟨if last ≤ 0 then max (readBack total) current
    else if last ≤ current then readBack total + (current - last) else readBack total + current,
    ⟨?_, hcurrent, ?_, ?_⟩, ?_⟩
  · rw [advanceCounter, get_set_of_ne (keys_ne counter).symm, get_set, if_pos rfl]
    exact hback
  · rw [trafficOf, advanceCounter, get_set, if_pos rfl, h.read, h.back]
  · rw [advanceCounter, get_set, if_pos rfl, h.read, h.back]
    rfl
  · have hlast := h.nonneg
    rw [increase]
    by_cases hzero : last = 0
    · subst hzero
      rw [if_pos (le_refl 0), if_neg (not_lt.mpr hcurrent)]
      by_cases hpos : 0 < current
      · rw [if_pos ⟨rfl, hpos⟩]
        constructor
        · intro heq
          by_cases h0 : total = 0
          · exact .inl h0
          · rcases max_choice (readBack total) current with hmax | hmax <;> omega
        · rintro (rfl | heq)
          · rw [readBack_zero]
            omega
          · omega
      · rw [if_neg fun hboth => hpos hboth.2]
        omega
    · have hfirst : ¬ (last = 0 ∧ 0 < current) := fun hboth => hzero hboth.1
      rw [if_neg hfirst, if_neg (by omega)]
      split <;> split <;> omega

theorem get_rollupNamed {key : String} (h : key ∉ ["mac", "name", "ip"]) :
    get (rollupNamed mac entry device) key = get entry key := by
  simp only [List.mem_cons, List.not_mem_nil, or_false, not_or] at h
  rw [rollupNamed, get_set_of_ne (Ne.symm h.2.2), get_set_of_ne (Ne.symm h.2.1),
    get_set_of_ne (Ne.symm h.1)]

theorem get_rollupOnline {key : String} (h : key ∈ ["lastUploadCounter", "uploadBytes",
    "lastDownloadCounter", "downloadBytes"]) :
    get (rollupOnline c mac entry device) key = get entry key := by
  have hnames : key ∉ ["mac", "name", "ip"] ∧ key ∉ ["online", "onlineSince", "firstSeenAt",
      "lastSeenAt", "offlineAt", "onlineDurationSec"] :=
    (by decide : ∀ key ∈ ["lastUploadCounter", "uploadBytes", "lastDownloadCounter",
      "downloadBytes"], key ∉ ["mac", "name", "ip"] ∧ key ∉ ["online", "onlineSince",
        "firstSeenAt", "lastSeenAt", "offlineAt", "onlineDurationSec"]) key h
  rw [rollupOnline]
  exact (get_foldl_set hnames.2).trans (get_rollupNamed hnames.1)

theorem get_rollupOffline {key : String} (h : key ∈ ["lastUploadCounter", "uploadBytes",
    "lastDownloadCounter", "downloadBytes"]) :
    get (rollupOffline c mac entry old) key = get entry key := by
  have hnames : key ∉ ["mac", "name", "ip"] ∧ key ∉ ["online", "onlineSince", "lastSeenAt",
      "offlineAt", "onlineDurationSec"] :=
    (by decide : ∀ key ∈ ["lastUploadCounter", "uploadBytes", "lastDownloadCounter",
      "downloadBytes"], key ∉ ["mac", "name", "ip"] ∧ key ∉ ["online", "onlineSince",
        "lastSeenAt", "offlineAt", "onlineDurationSec"]) key h
  rw [rollupOffline]
  exact (get_foldl_set hnames.2).trans (get_rollupNamed hnames.1)

theorem get_advanceCounter {key : String} (hlast : counter.lastKey ≠ key)
    (htotal : counter.totalKey ≠ key) :
    get (advanceCounter counter current entry) key = get entry key := by
  rw [advanceCounter, get_set_of_ne htotal, get_set_of_ne hlast]

theorem Telling.gone (mac : String) (c : Clock) (old : Entries) (h : Telling counter entry last total) :
    Telling counter (see mac entry (.gone c old)) last total :=
  h.congr (get_rollupOffline (by cases counter <;> decide))
    (get_rollupOffline (by cases counter <;> decide))

theorem Telling.online (mac : String) (c : Clock) (device : Entries)
    (h : Telling counter entry last total) (htotal : 0 ≤ total) :
    ∃ total', Telling counter (see mac entry (.online c device))
        (trafficCounter device counter.sources) total' ∧
      (total' = total + increase last (trafficCounter device counter.sources) ↔
        if last = 0 ∧ 0 < trafficCounter device counter.sources then
          total = 0 ∨ readBack total = total + trafficCounter device counter.sources
        else readBack total = total) := by
  obtain ⟨hback, hcurrent⟩ := readBack_trafficCounter device counter.sources
  have hother : ∀ other : Counter, other ≠ counter → other.lastKey ≠ counter.lastKey ∧
      other.totalKey ≠ counter.lastKey ∧ other.lastKey ≠ counter.totalKey ∧
      other.totalKey ≠ counter.totalKey := by
    intro other hne
    cases counter <;> cases other <;> first | exact absurd rfl hne | decide
  have hnamed : Telling counter (rollupOnline c mac entry device) last total :=
    h.congr (get_rollupOnline (by cases counter <;> decide))
      (get_rollupOnline (by cases counter <;> decide))
  cases counter with
  | upload =>
    obtain ⟨total', htelling, hiff⟩ := hnamed.advance hback hcurrent htotal
    obtain ⟨h1, h2, h3, h4⟩ := hother .download (by decide)
    exact ⟨total', htelling.congr (get_advanceCounter h1 h2) (get_advanceCounter h3 h4), hiff⟩
  | download =>
    obtain ⟨h1, h2, h3, h4⟩ := hother .upload (by decide)
    exact (hnamed.congr (get_advanceCounter h1 h2) (get_advanceCounter h3 h4)).advance
      hback hcurrent htotal

-- ---------------------------------------------------------------------------
-- All sightings
-- ---------------------------------------------------------------------------

omit [Unicode] in
theorem increase_nonneg (last : Int) (hcurrent : 0 ≤ current) : 0 ≤ increase last current := by
  unfold increase
  split <;> omega

theorem telling_foldl_iff (mac : String) (sightings : List Sighting)
    (h : Telling counter entry last total) (htotal : 0 ≤ total) :
    (∀ seen, seen <+: sightings → trafficOf counter (seen.foldl (see mac) entry) =
        total + traffic last (seen.filterMap (Sighting.reading counter))) ↔
      Kept last total (sightings.filterMap (Sighting.reading counter)) := by
  induction sightings generalizing entry last total with
  | nil =>
    refine iff_of_true (fun seen hseen => ?_) trivial
    rw [List.prefix_nil.mp hseen]
    simp [traffic, h.tells]
  | cons sighting sightings ih =>
    have hsplit : ∀ P : List Sighting → Prop, (∀ seen, seen <+: sighting :: sightings → P seen) ↔
        P [] ∧ ∀ seen, seen <+: sightings → P (sighting :: seen) := by
      intro P
      constructor
      · exact fun hall => ⟨hall [] (List.nil_prefix), fun seen hseen =>
          hall _ (List.cons_prefix_cons.mpr ⟨rfl, hseen⟩)⟩
      · rintro ⟨hnil, hcons⟩ seen hseen
        cases seen with
        | nil => exact hnil
        | cons first seen =>
          obtain ⟨rfl, hrest⟩ := List.cons_prefix_cons.mp hseen
          exact hcons seen hrest
    have hnil : trafficOf counter ([].foldl (see mac) entry) =
        total + traffic last ([].filterMap (Sighting.reading counter)) := by
      simp [traffic, h.tells]
    rw [hsplit, and_iff_right hnil]
    cases sighting with
    | gone c old => exact ih (h.gone mac c old) htotal
    | online c device =>
      obtain ⟨total', htelling, hiff⟩ := h.online mac c device htotal
      have hcurrent := (readBack_trafficCounter device counter.sources).2
      have hpos := increase_nonneg last hcurrent
      have hreading : ∀ seen : List Sighting,
          (Sighting.online c device :: seen).filterMap (Sighting.reading counter) =
            trafficCounter device counter.sources :: seen.filterMap (Sighting.reading counter) :=
        fun seen => rfl
      simp only [hreading, List.foldl_cons, traffic, Kept, ← hiff, ← Int.add_assoc]
      constructor
      · intro hall
        have hfirst : total' = total + increase last (trafficCounter device counter.sources) := by
          have hone := hall [] List.nil_prefix
          rw [List.foldl_nil, htelling.tells] at hone
          simpa [traffic] using hone
        subst hfirst
        exact ⟨rfl, (ih htelling (by omega)).mp hall⟩
      · rintro ⟨rfl, hkept⟩
        exact (ih htelling (by omega)).mpr hkept

/-- Through every sequence of sightings of a device, the traffic of its entry
is the sum of the increases of its readings if and only if the condition
holds at every reading. -/
theorem traffic_exact_iff (mac : String) (counter : Counter) (sightings : List Sighting) :
    (∀ seen, seen <+: sightings → trafficOf counter (seen.foldl (see mac) []) =
        traffic 0 (seen.filterMap (Sighting.reading counter))) ↔
      Kept 0 0 (sightings.filterMap (Sighting.reading counter)) := by
  have hiff := telling_foldl_iff mac sightings (telling_nil counter) (le_refl 0)
  simpa only [Int.zero_add] using hiff

end

section

local instance asciiTraffic : Unicode := .ascii

def trafficClock : Clock := ⟨⟨2026, 1, 1, 9, 0, 0, rfl⟩, 1767258000⟩

def uploaded (bytes : Int) : Sighting := .online trafficClock [("todayUpload", .int bytes)]

/-- A counter that starts anew at zero loses what follows, while one that
starts anew above zero does not. -/
theorem zero_lost :
    trafficOf .upload ([uploaded 100, uploaded 0, uploaded 50].foldl (see "aa:bb:cc:dd:ee:01") []) =
        100 ∧
      traffic 0 ([uploaded 100, uploaded 0, uploaded 50].filterMap (Sighting.reading .upload)) = 150 ∧
      Kept 0 0 ([uploaded 100, uploaded 1, uploaded 50].filterMap (Sighting.reading .upload)) := by
  decide +kernel

end

end LabProbe.Devices
