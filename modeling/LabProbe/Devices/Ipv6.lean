import LabProbe.Devices.Ingest
import LabProbe.Hub.AddressText
import LabProbe.Lib.Ranking
import Mathlib.Data.Prod.Lex

/-!
# The IPv6 addresses of a device

The Hub keeps a record of every IPv6 address a device was seen with, and
shows the one with the most points as its primary address. Inside the
prefixes of today a record gains points and outside it loses some, but the
primary of yesterday gains more.
-/

namespace LabProbe.Devices

open Py Py.Json Hub Ranking

/-- The seconds of the epoch at a local time, `none` where `timestamp` raises. -/
abbrev Zone := DateTime → Option Int

structure Ipv6Record where
  ip : String
  firstSeen : String
  lastSeen : String
  lastReachable : String
  source : String
  state : String
  dev : String
  currentPrefix : Bool
  temporary : Bool
  primary : Bool
  historical : Bool
  deriving DecidableEq

def Ipv6Record.entries (r : Ipv6Record) : Entries :=
  [("ip", .str r.ip), ("firstSeen", .str r.firstSeen), ("lastSeen", .str r.lastSeen),
   ("lastReachable", .str r.lastReachable), ("source", .str r.source), ("state", .str r.state),
   ("dev", .str r.dev), ("currentPrefix", .bool r.currentPrefix), ("temporary", .bool r.temporary),
   ("primary", .bool r.primary), ("historical", .bool r.historical)]

-- ---------------------------------------------------------------------------
-- Classes of an address
-- ---------------------------------------------------------------------------

def unusable (value : Nat) : Bool :=
  (IpAddress.v6 value).isLinkLocal || (IpAddress.v6 value).isMulticast ||
    (IpAddress.v6 value).isLoopback || value / 2 ^ 32 == 0xffff

/-- `is_ula_ipv6`; the text of an address begins in lower case. -/
def isUla : IpAddress → Bool
  | .v4 _ => false
  | .v6 value => isPrivate6 value && (["fc", "fd"].any fun start =>
      start.toList.isPrefixOf (ipv6Text value))

/-- Whether one of the networks has the address; none after one that cannot
be read. -/
def inPrefixes (a : IpAddress) : List String → Bool
  | [] => false
  | p :: ps => match ipNetwork p with
    | none => false
    | some network => network.contains a || inPrefixes a ps

def ipv6InPrefixes (ip : String) (prefixes : List String) : Bool :=
  ((ipAddress ip).map fun a => inPrefixes a prefixes).getD false

def isUlaIpv6 (ip : String) : Bool := ((ipAddress ip).map isUla).getD false

section
variable [Unicode]

def timeToEpoch (zone : Zone) (v : Json) : Int := ((parseTimeSafe v).bind zone).getD 0

def isTemporaryIpv6 (source : String) : Bool :=
  ["temporary", "privacy", " temp", "临时", "隐私"].any fun token =>
    contains token.toList (Unicode.lower source).toList

-- ---------------------------------------------------------------------------
-- The points of a record
-- ---------------------------------------------------------------------------

def ipv6ReachabilityScore (state : String) : Int :=
  let s := Unicode.upper (cleanSavedValue (.str state))
  if s = "REACHABLE" then 20
  else if s = "DELAY" ∨ s = "PROBE" then 12
  else if s = "STALE" then 4
  else if s = "FAILED" then -30
  else 0

def kindScore (value : Nat) : Int :=
  if !isPrivate6 value then 100 else if isUla (.v6 value) then 40 else 0

def Ipv6Record.prefixScore (r : Ipv6Record) : Int :=
  (if r.currentPrefix then 25 else 0) - (if r.historical then 35 else 0)

/-- The points a record has wherever its address lies. -/
def Ipv6Record.standing (zone : Zone) (r : Ipv6Record) : Int :=
  let source := (Unicode.lower r.source).toList
  ipv6ReachabilityScore r.state
    + (if contains "hub_local".toList r.source.toList then 160 else 0)
    + (if r.primary then 120 else 0)
    - (if contains "crosscheck".toList source then 80 else 0)
    + (if contains "dhcp".toList source then 10 else 0)
    + (if isTemporaryIpv6 r.source then -10 else 8)
    + min 5 (timeToEpoch zone (.str r.lastSeen) / 86400 % 6)

def scoreIpv6Record (zone : Zone) (r : Ipv6Record) : Int :=
  match ipAddress (cleanSavedValue (.str r.ip)) with
  | some (.v6 value) =>
    if unusable value then -9999 else kindScore value + r.prefixScore + r.standing zone
  | _ => -9999

def Ipv6Record.rank (zone : Zone) (r : Ipv6Record) : Int ×ₗ Int :=
  toLex (scoreIpv6Record zone r, timeToEpoch zone ((Json.str r.lastReachable).or (.str r.lastSeen)))

def Ipv6Record.valid (zone : Zone) (r : Ipv6Record) : Bool := -9999 < scoreIpv6Record zone r

def pickPrimaryIpv6 (zone : Zone) (records : List Ipv6Record) : String :=
  ((sortedDesc (Ipv6Record.rank zone) (records.filter (Ipv6Record.valid zone))).head?.map
    fun r => cleanSavedValue (.str r.ip)).getD ""

-- ---------------------------------------------------------------------------
-- Reading records
-- ---------------------------------------------------------------------------

omit [Unicode] in
/-- The words of a list, or of a text between white space and commas. -/
def ipv6Words : Json → List String
  | .list xs => xs.map fun x => (x.or (.str "")).toStr
  | .str s => (s.toList.splitOnP fun c => isSpace c || c == ',').map String.ofList
  | _ => []

/-- An address in the spelling of the standard library, without its prefix length. -/
def readIpv6 (v : String) : Option String :=
  let ip := String.ofList ((splitOn '/' (strip v).toList).headD [])
  if ip = "" || !ip.toList.contains ':' || "fe80:".toList.isPrefixOf (Unicode.lower ip).toList then
    none
  else match ipAddress ip with
    | some (.v6 value) => if unusable value then none else some (ipText ip (.v6 value))
    | _ => none

def normalizeIpv6List (values : Json) : List String :=
  ((ipv6Words values).filterMap readIpv6).eraseDups.take 8

def ipv6RecordOf (c : Clock) (prefixes : List String) (item : Entries) : Option Ipv6Record :=
  let given := (((get item "ip").or (get item "ipv6")).or (get item "address")).or (get item "addr")
  (normalizeIpv6List (.list [given])).head?.map fun ip =>
    let state := cleanSavedValue ((get item "state").or (get item "ndState"))
    let source := firstText [get item "source", .str "unknown"]
    let lastSeen := firstText [(get item "lastSeen").or (get item "seenAt"), .str c.stamp]
    let lastReachable := cleanSavedValue (get item "lastReachable")
    let current := if prefixes.isEmpty then (get item "currentPrefix").truthy
      else ipv6InPrefixes ip prefixes
    { ip := ip
      firstSeen := firstText
        [((get item "firstSeen").or (get item "seenAt")).or (get item "lastSeen"), .str c.stamp]
      lastSeen := lastSeen
      lastReachable := if lastReachable = "" && ["REACHABLE", "DELAY", "PROBE"].contains
        (Unicode.upper state) then lastSeen else lastReachable
      source := source
      state := state
      dev := cleanSavedValue (((get item "dev").or (get item "iface")).or (get item "ifname"))
      currentPrefix := current
      temporary := (get item "temporary").truthy || isTemporaryIpv6 source
      primary := (get item "primary").truthy
      historical := if prefixes.isEmpty then (get item "historical").truthy
        else !current && !isUlaIpv6 ip }

omit [Unicode] in
def recordItems : Json → List Entries
  | .dict d => itemsOf (d.map Prod.snd)
  | .list xs => itemsOf xs
  | _ => []
where
  /-- A text stands for an address. -/
  itemsOf (xs : List Json) : List Entries := xs.filterMap fun
    | .str s => some [("ip", .str s)]
    | item => dict? item

def normalizeIpv6Records (c : Clock) (prefixes : List String) (records : Json) :
    List Ipv6Record :=
  let out := (recordItems records).filterMap (ipv6RecordOf c prefixes)
  ((Dict.ofEntries (out.map fun r => (r.ip, r))).map Prod.snd).take 24

-- ---------------------------------------------------------------------------
-- Merging
-- ---------------------------------------------------------------------------

/-- A row of the router's table of neighbours, as `parse_ipv6_neighbors` reads it. -/
structure Neighbor where
  mac : String
  ip : String
  state : String
  dev : String
  seenAt : String
  source : String

/-- What the Hub knows of the host it runs on; the texts are empty where it
knows nothing. -/
structure Host where
  nasMacs : List String := []
  lanIpv4 : String := ""
  globalIpv6 : String := ""

def localHubIpv6Records (c : Clock) (host : Host) : List (String × Entries) :=
  (normalizeIpv6List (.list [.str host.globalIpv6])).map fun ip =>
    (ip, [("ip", .str ip), ("firstSeen", .str c.stamp), ("lastSeen", .str c.stamp),
      ("lastReachable", .str c.stamp), ("source", .str "hub_local_probe"),
      ("state", .str "REACHABLE"), ("dev", .str "hub"), ("currentPrefix", .bool true),
      ("temporary", .bool (isTemporaryIpv6 "hub_local_probe")), ("historical", .bool false),
      ("primary", .bool true)])

def isNas (host : Host) (mac : String) (old : Entries) : Bool :=
  host.nasMacs.contains mac || (host.lanIpv4 != "" &&
    cleanSavedValue ((get old "ip").or (get old "lastIp")) == host.lanIpv4)

def neighborFields (c : Clock) (prefixes : List String) (nas : Bool) (n : Neighbor)
    (record : Entries) : Entries :=
  let ip := cleanSavedValue (.str n.ip)
  let source := if nas then "router_ndp_crosscheck"
    else firstText [.str n.source, .str "router_ndp"]
  let seenAt := firstText [.str n.seenAt, .str c.stamp]
  let state := cleanSavedValue (.str n.state)
  let current := ipv6InPrefixes ip prefixes
  let reached := ["REACHABLE", "DELAY", "PROBE", "LEASED"].contains (Unicode.upper state)
  Dict.update record ([("lastSeen", .str seenAt), ("source", .str source), ("state", .str state),
    ("dev", .str (cleanSavedValue (.str n.dev))), ("currentPrefix", .bool current),
    ("temporary", .bool (isTemporaryIpv6 source)), ("primary", .bool false)] ++
    (if reached then [("lastReachable", .str seenAt)] else []) ++
    [("historical", .bool (!prefixes.isEmpty && !current && !isUlaIpv6 ip))])

def mergedRecords (c : Clock) (host : Host) (prefixes : List String) (n : Neighbor)
    (old : Entries) : List Ipv6Record :=
  let ip := cleanSavedValue (.str n.ip)
  let nas := isNas host (normMac (.str n.mac)) old
  let given := ((get old "ipv6Records").or (get old "ipv6List")).or (.list [])
  let byIp := Dict.ofEntries
    ((normalizeIpv6Records c prefixes given).map fun r => (r.ip, r.entries))
  let seenAt := firstText [.str n.seenAt, .str c.stamp]
  let record := (Dict.get? byIp ip).getD [("ip", .str ip), ("firstSeen", .str seenAt)]
  let byIp := Dict.set byIp ip (neighborFields c prefixes nas n record)
  let byIp := if nas then (localHubIpv6Records c host).foldl (fun byIp entry =>
      let existing := (Dict.get? byIp entry.1).getD
        [("ip", .str entry.1), ("firstSeen", get entry.2 "firstSeen")]
      Dict.set byIp entry.1 (Dict.update existing entry.2)) byIp
    else byIp
  normalizeIpv6Records c prefixes (.list (byIp.map fun entry => .dict entry.2))

def markPrimary (zone : Zone) (records : List Ipv6Record) : List Ipv6Record :=
  let best := pickPrimaryIpv6 zone records
  records.map fun r => { r with primary := best != "" && r.ip == best }

def mergeNeighbor (zone : Zone) (c : Clock) (host : Host) (prefixes : List String) (n : Neighbor)
    (old : Entries) : Entries :=
  let merged := mergedRecords c host prefixes n old
  let best := pickPrimaryIpv6 zone merged
  let records := markPrimary zone merged
  let others := (sortedDesc (scoreIpv6Record zone) records).filterMap fun r =>
    if r.ip = best then none else some (Json.str r.ip)
  let ipv6List := normalizeIpv6List (.list (.str best :: others))
  let stored := Json.list (records.map fun r => .dict r.entries)
  let changed := !stored.eq (get old "ipv6Records") ||
    !(Json.list (ipv6List.map .str)).eq (get old "ipv6List") || !(Json.str best).eq (get old "ipv6")
  let found := if best = "" then [] else
    [("ipv6", .str best), ("ipv6Address", .str best), ("globalIpv6", .str best)]
  let fields := if changed then
      [("ipv6Records", stored), ("ipv6List", .list (ipv6List.map .str))] ++ found ++
        [("ipv6UpdatedAt", .str c.stamp)]
    else []
  Dict.update old (fields ++ [("mac", .str (normMac (.str n.mac))), ("ndpState", .str n.state),
    ("ndpDev", .str n.dev), ("archivedAt", .str c.stamp)])

/-- `merge_ipv6_neighbors_to_archive`. -/
def mergeIpv6Neighbors (zone : Zone) (c : Clock) (host : Host) (prefixes : List String)
    (neighbors : List Neighbor) (archive : Json) : Json :=
  if neighbors.isEmpty then archive else
  .dict (Logs.cap 500 (neighbors.foldl (fun archive n =>
    let mac := normMac (.str n.mac)
    if mac = "" ∨ cleanSavedValue (.str n.ip) = "" then archive
    else Dict.set archive mac (.dict (mergeNeighbor zone c host prefixes n (asDict (get archive mac)))))
    (asDict archive)))

-- ---------------------------------------------------------------------------
-- What a record says of its address
-- ---------------------------------------------------------------------------

omit [Unicode] in
/-- An address outside the prefixes of today, and not one of the site's own. -/
def Historical (prefixes : List String) (ip : String) : Prop :=
  ip ≠ "" ∧ ipv6InPrefixes ip prefixes = false ∧ isUlaIpv6 ip = false

/-- A reachable global address inside the prefixes of today that is not temporary. -/
def Ipv6Record.Settled (prefixes : List String) (r : Ipv6Record) : Prop :=
  Unicode.upper (cleanSavedValue (.str r.state)) = "REACHABLE" ∧ r.temporary = false ∧
    ipv6InPrefixes r.ip prefixes = true ∧ ∃ value, ipAddress r.ip = some (.v6 value) ∧
      isPrivate6 value = false

variable {zone : Zone} {c : Clock} {prefixes : List String} {records : Json} {r : Ipv6Record}

theorem readIpv6_some {v ip : String} (h : readIpv6 v = some ip) :
    ∃ s value, ipAddress s = some (.v6 value) ∧ unusable value = false ∧
      ip = ipText s (.v6 value) := by
  unfold readIpv6 at h
  dsimp only at h
  split at h
  · cases h
  · split at h
    · rename_i value hparse
      split at h
      · cases h
      · rename_i husable
        cases h
        exact ⟨_, value, hparse, by simpa using husable, rfl⟩
    · cases h

/-- What `normalize_ipv6_records` makes sure of where there are prefixes. -/
structure Ipv6Record.Classed (prefixes : List String) (r : Ipv6Record) (value : Nat) : Prop where
  parse : ipAddress r.ip = some (.v6 value)
  clean : ∀ a, ipAddress (cleanSavedValue (.str r.ip)) = some a → a = .v6 value
  current : r.currentPrefix = ipv6InPrefixes r.ip prefixes
  historical : r.historical = (!ipv6InPrefixes r.ip prefixes && !isUlaIpv6 r.ip)
  temporary : r.temporary = false → isTemporaryIpv6 r.source = false

theorem ipv6RecordOf_classed {item : Entries} (hp : prefixes ≠ [])
    (h : ipv6RecordOf c prefixes item = some r) : ∃ value, r.Classed prefixes value := by
  have hempty : prefixes.isEmpty = false := by simpa using hp
  unfold ipv6RecordOf at h
  dsimp only at h
  obtain ⟨ip, hip, rfl⟩ := Option.map_eq_some_iff.mp h
  have hmem := List.mem_of_head? hip
  obtain ⟨v, -, hread⟩ := List.mem_filterMap.mp
    (List.mem_eraseDups.mp (List.mem_of_mem_take hmem))
  obtain ⟨s, value, hparse, -, rfl⟩ := readIpv6_some hread
  exact ⟨value, ipAddress_ipText hparse, fun a ha => ipAddress_clean hparse ha, by simp [hempty],
    by simp [hempty], fun h => (Bool.or_eq_false_iff.mp h).2⟩

theorem classed (hp : prefixes ≠ []) (h : r ∈ normalizeIpv6Records c prefixes records) :
    ∃ value, r.Classed prefixes value := by
  obtain ⟨entry, hentry, rfl⟩ := List.mem_map.mp (List.mem_of_mem_take h)
  obtain ⟨record, hrecord, rfl⟩ := List.mem_map.mp (Dict.mem_ofEntries hentry)
  obtain ⟨item, -, hitem⟩ := List.mem_filterMap.mp hrecord
  exact ipv6RecordOf_classed hp hitem

theorem nodup_normalizeIpv6Records : (normalizeIpv6Records c prefixes records).Nodup := by
  refine List.Nodup.sublist (List.take_sublist _ _) (List.Nodup.of_map Ipv6Record.ip ?_)
  rw [List.map_map]
  generalize hout : (recordItems records).filterMap (ipv6RecordOf c prefixes) = out
  have hkeys : (Dict.ofEntries (out.map fun r => (r.ip, r))).map (Ipv6Record.ip ∘ Prod.snd) =
      Dict.keys (Dict.ofEntries (out.map fun r => (r.ip, r))) := by
    refine List.map_congr_left fun entry hentry => ?_
    obtain ⟨record, -, rfl⟩ := List.mem_map.mp (Dict.mem_ofEntries hentry)
    rfl
  rw [hkeys]
  exact Dict.nodup_keys_ofEntries _

theorem historical_iff {value : Nat} (hc : r.Classed prefixes value)
    (hvalid : r.valid zone = true) :
    Historical prefixes (cleanSavedValue (.str r.ip)) ↔ r.historical = true := by
  obtain ⟨a, ha⟩ : ∃ a, ipAddress (cleanSavedValue (.str r.ip)) = some a := by
    unfold Ipv6Record.valid scoreIpv6Record at hvalid
    cases h : ipAddress (cleanSavedValue (.str r.ip)) with
    | none =>
      rw [h] at hvalid
      cases hvalid
    | some a => exact ⟨a, rfl⟩
  obtain rfl := hc.clean a ha
  have hne : cleanSavedValue (.str r.ip) ≠ "" := by
    intro h
    have hnone : ipAddress "" = none := by decide
    rw [h, hnone] at ha
    cases ha
  have hprefixes : ipv6InPrefixes (cleanSavedValue (.str r.ip)) prefixes =
      ipv6InPrefixes r.ip prefixes := by rw [ipv6InPrefixes, ipv6InPrefixes, ha, hc.parse]
  have hula : isUlaIpv6 (cleanSavedValue (.str r.ip)) = isUlaIpv6 r.ip := by
    rw [isUlaIpv6, isUlaIpv6, ha, hc.parse]
  rw [Historical, hprefixes, hula, hc.historical]
  simp [hne]

-- ---------------------------------------------------------------------------
-- The primary address
-- ---------------------------------------------------------------------------

def PrefixesLead (zone : Zone) (records : List Ipv6Record) : Prop :=
  ∀ r ∈ records, r.valid zone = true → r.historical = true →
    ∃ q ∈ records, q.historical = false ∧ Above (Ipv6Record.rank zone) records q r

theorem valid_of_above {l : List Ipv6Record} {q : Ipv6Record}
    (h : Above (Ipv6Record.rank zone) l q r) (hr : r.valid zone = true) : q.valid zone = true := by
  rw [Ipv6Record.valid, decide_eq_true_eq] at hr ⊢
  rcases Prod.Lex.le_iff.mp h.le with hlt | ⟨heq, -⟩
  · exact hr.trans hlt
  · exact hr.trans_eq heq

theorem pick_not_historical_iff (hp : prefixes ≠ []) :
    ¬ Historical prefixes (pickPrimaryIpv6 zone (normalizeIpv6Records c prefixes records)) ↔
      PrefixesLead zone (normalizeIpv6Records c prefixes records) := by
  have hclassed : ∀ r, r ∈ normalizeIpv6Records c prefixes records →
      ∃ value, r.Classed prefixes value := fun r => classed hp
  have hnodup : (normalizeIpv6Records c prefixes records).Nodup := nodup_normalizeIpv6Records
  generalize normalizeIpv6Records c prefixes records = merged at hclassed hnodup
  have hlead : PrefixesLead zone merged ↔
      ∀ r ∈ merged.filter (Ipv6Record.valid zone), r.historical = true →
        ∃ q ∈ merged.filter (Ipv6Record.valid zone), ¬ q.historical = true ∧
          Above (Ipv6Record.rank zone) (merged.filter (Ipv6Record.valid zone)) q r := by
    simp only [PrefixesLead, List.mem_filter, and_imp, Bool.not_eq_true]
    refine forall_congr' fun r => forall_congr' fun hr => forall_congr' fun hvalid =>
      forall_congr' fun _ => exists_congr fun q => ?_
    constructor
    · rintro ⟨hq, hnot, habove⟩
      have hvalid' := valid_of_above habove hvalid
      exact ⟨⟨hq, hvalid'⟩, hnot, (above_filter hvalid' hvalid).mpr habove⟩
    · rintro ⟨⟨hq, hvalid'⟩, hnot, habove⟩
      exact ⟨hq, hnot, (above_filter hvalid' hvalid).mp habove⟩
  rw [hlead, pickPrimaryIpv6]
  cases hhead : (sortedDesc (Ipv6Record.rank zone)
      (merged.filter (Ipv6Record.valid zone))).head? with
  | none =>
    rw [head?_eq_none hhead]
    simp [Historical]
  | some w =>
    obtain ⟨hw, hvalid⟩ := List.mem_filter.mp (head?_mem hhead)
    obtain ⟨value, hc⟩ := hclassed w hw
    rw [← head?_not_iff (hnodup.filter _) hhead fun r => r.historical = true, Option.map_some,
      Option.getD_some, historical_iff hc hvalid]

/-- For all records, primaries and prefixes, the choice is no historical
address where a settled one is there, if and only if those inside the prefixes
lead. -/
theorem primary_current_iff (zone : Zone) (c : Clock) (records : Json) (first : String)
    (others : List String) :
    let merged := normalizeIpv6Records c (first :: others) records
    ((∃ r ∈ merged, r.Settled (first :: others)) →
        ¬ Historical (first :: others) (pickPrimaryIpv6 zone merged)) ↔
      ((∃ r ∈ merged, r.Settled (first :: others)) → PrefixesLead zone merged) :=
  imp_congr_right fun _ => pick_not_historical_iff (List.cons_ne_nil _ _)

-- ---------------------------------------------------------------------------
-- What keeps a historical address
-- ---------------------------------------------------------------------------

/-- Neither the primary so far nor an address of the Hub itself. -/
def Ipv6Record.Plain (r : Ipv6Record) : Prop :=
  r.primary = false ∧ contains "hub_local".toList r.source.toList = false

theorem day_bounds (zone : Zone) (v : Json) :
    0 ≤ min 5 (timeToEpoch zone v / 86400 % 6) ∧ min 5 (timeToEpoch zone v / 86400 % 6) ≤ 5 := by
  omega

theorem reachability_le (state : String) : ipv6ReachabilityScore state ≤ 20 := by
  unfold ipv6ReachabilityScore
  dsimp only
  split_ifs <;> decide

theorem score_of_valid {value : Nat} (hc : r.Classed prefixes value) (hv : r.valid zone = true) :
    scoreIpv6Record zone r = kindScore value + r.prefixScore + r.standing zone := by
  unfold Ipv6Record.valid scoreIpv6Record at hv
  unfold scoreIpv6Record
  cases h : ipAddress (cleanSavedValue (.str r.ip)) with
  | none =>
    rw [h] at hv
    cases hv
  | some a =>
    obtain rfl := hc.clean a h
    rw [h] at hv
    dsimp only at hv ⊢
    split at hv
    · cases hv
    · rename_i husable
      rw [if_neg husable]

omit [Unicode] in
theorem kindScore_le (value : Nat) : kindScore value ≤ 100 := by
  unfold kindScore
  split_ifs <;> decide

theorem score_le_of_plain {value : Nat} (hc : r.Classed prefixes value) (hv : r.valid zone = true)
    (hh : r.historical = true) (hplain : r.Plain) : scoreIpv6Record zone r ≤ 108 := by
  have hcurrent : r.currentPrefix = false := by
    have hhist := hc.historical.symm.trans hh
    simp only [Bool.and_eq_true, Bool.not_eq_true'] at hhist
    rw [hc.current, hhist.1]
  have hkind := kindScore_le value
  have hreach := reachability_le r.state
  have hday := (day_bounds zone (.str r.lastSeen)).2
  rw [score_of_valid hc hv, Ipv6Record.prefixScore, hcurrent, hh, Ipv6Record.standing, hplain.1,
    hplain.2]
  simp only [Bool.false_eq_true, if_false, if_true]
  split_ifs <;> omega

/-- A settled record has 153 points at least, unless it is only a cross-check. -/
theorem le_score_of_settled {value : Nat} (hc : r.Classed prefixes value) (hv : r.valid zone = true)
    (hs : r.Settled prefixes)
    (hcheck : contains "crosscheck".toList (Unicode.lower r.source).toList = false) :
    153 ≤ scoreIpv6Record zone r := by
  obtain ⟨hstate, htemporary, hprefix, n, hn, hglobal⟩ := hs
  rw [hc.parse, Option.some.injEq, IpAddress.v6.injEq] at hn
  subst hn
  have hhist : r.historical = false := by rw [hc.historical, hprefix]; rfl
  have hday := (day_bounds zone (.str r.lastSeen)).1
  rw [score_of_valid hc hv, Ipv6Record.prefixScore, hc.current, hprefix, hhist, Ipv6Record.standing,
    hcheck, hc.temporary htemporary, kindScore, hglobal, ipv6ReachabilityScore, hstate]
  simp only [Bool.not_false, Bool.false_eq_true, if_false, if_true]
  split_ifs <;> omega

/-- Only the points of the primary so far, or of the Hub's own address, keep
a historical address before a settled one. -/
theorem prefixesLead_of_plain {q : Ipv6Record} (hp : prefixes ≠ [])
    (hq : q ∈ normalizeIpv6Records c prefixes records) (hs : q.Settled prefixes)
    (hv : q.valid zone = true)
    (hcheck : contains "crosscheck".toList (Unicode.lower q.source).toList = false)
    (hplain : ∀ r ∈ normalizeIpv6Records c prefixes records, r.historical = true → r.Plain) :
    PrefixesLead zone (normalizeIpv6Records c prefixes records) := by
  intro r hr hvalid hh
  obtain ⟨value, hc⟩ := classed hp hq
  obtain ⟨value', hc'⟩ := classed hp hr
  have hlow := score_le_of_plain hc' hvalid hh (hplain r hr hh)
  have hhigh := le_score_of_settled hc hv hs hcheck
  refine ⟨q, hq, ?_, .inl (Prod.Lex.lt_iff.mpr (.inl ?_))⟩
  · rw [hc.historical, hs.2.2.1]
    rfl
  · exact lt_of_le_of_lt hlow (lt_of_lt_of_le (by decide) hhigh)

end

section

local instance ipv6Unicode : Unicode := .ascii

def utc : Zone := fun t => some ((t.seconds : Int) - 62135683200)

def renumberClock : Clock := ⟨⟨2026, 3, 1, 9, 0, 0, rfl⟩, 1772355600⟩

def seenAs (ip : String) : Neighbor :=
  ⟨"6c:1f:f7:76:71:04", ip, "REACHABLE", "br-lan", "2026-03-01 09:00:00", "router_ndp"⟩

/-- The row of a device that was seen inside the old prefix. -/
def renumbered : Entries :=
  asDict (get (asDict (mergeIpv6Neighbors utc renumberClock {} ["2409:8a00:1::/64"]
    [seenAs "2409:8a00:1::5"] .null)) "6c:1f:f7:76:71:04")

/-- The router changes its prefix, and the device is seen inside the new one:
the address of the old prefix stays the primary. -/
theorem old_primary_stays :
    let merged := mergedRecords renumberClock {} ["2409:8a00:2::/64"] (seenAs "2409:8a00:2::5")
      renumbered
    (∃ r ∈ merged, r.Settled ["2409:8a00:2::/64"]) ∧
      pickPrimaryIpv6 utc merged = "2409:8a00:1::5" ∧
      Historical ["2409:8a00:2::/64"] (pickPrimaryIpv6 utc merged) := by
  have hpick : pickPrimaryIpv6 utc (mergedRecords renumberClock {} ["2409:8a00:2::/64"]
      (seenAs "2409:8a00:2::5") renumbered) = "2409:8a00:1::5" := by decide +kernel
  refine ⟨⟨⟨"2409:8a00:2::5", "2026-03-01 09:00:00", "2026-03-01 09:00:00", "2026-03-01 09:00:00",
    "router_ndp", "REACHABLE", "br-lan", true, false, false, false⟩, by decide +kernel, ?_⟩, hpick, ?_⟩
  · exact ⟨by decide +kernel, rfl, by decide +kernel, 0x24098a0000020000 * 2 ^ 64 + 5,
      by decide +kernel, by decide +kernel⟩
  · rw [hpick]
    exact ⟨by decide, by decide +kernel, by decide +kernel⟩

end

end LabProbe.Devices
