import LabProbe.Ddns.Values

/-!
# Records and addresses

What the store keeps, and the normalisers that read it from requests, from
reports of the relay and from the stored document.
-/

namespace LabProbe.Ddns

open Py Py.Json

-- ---------------------------------------------------------------------------
-- Data
-- ---------------------------------------------------------------------------

inductive FlowStatus where
  | disabled | waiting | detected | updating | published | error
  deriving DecidableEq, Repr

def FlowStatus.name : FlowStatus → String
  | .disabled => "disabled"
  | .waiting => "waiting"
  | .detected => "detected"
  | .updating => "updating"
  | .published => "published"
  | .error => "error"

def FlowStatus.ofName (name : String) : Option FlowStatus :=
  [.disabled, .waiting, .detected, .updating, .published, .error].find? fun s => s.name == name

inductive AddressState where
  | «public» | cgnat | unavailable | ambiguous
  deriving DecidableEq, Repr

def AddressState.name : AddressState → String
  | .public => "public"
  | .cgnat => "cgnat"
  | .unavailable => "unavailable"
  | .ambiguous => "ambiguous"

def Family.states : Family → List AddressState
  | .ipv4 => [.public, .cgnat, .unavailable, .ambiguous]
  | .ipv6 => [.public, .unavailable, .ambiguous]

def Family.stateOf (f : Family) (name : String) : AddressState :=
  (f.states.find? fun s => s.name == name).getD .unavailable

structure Tracker where
  candidate : String := ""
  stableCount : Nat := 0
  retryAttempt : Nat := 0
  nextRetryAt : Nat := 0
  authError : Bool := false
  deriving DecidableEq

structure Result where
  success : Bool
  provider : String
  recordId : String := ""
  changed : Bool := false
  status : String
  errorCode : String := ""
  errorMessage : String := ""
  deriving DecidableEq

structure DirectValues where
  cname : Option String := none
  txt : Option String := none
  deriving DecidableEq

def DirectValues.get (values : DirectValues) : RecordType → Option String
  | .cname => values.cname
  | .txt => values.txt
  | _ => none

def DirectValues.set (values : DirectValues) (t : RecordType) (value : String) : DirectValues :=
  match t with
  | .cname => { values with cname := some value }
  | .txt => { values with txt := some value }
  | _ => values

def DirectValues.isEmpty (values : DirectValues) : Bool :=
  values.cname.isNone && values.txt.isNone

def DirectValues.restrict (values : DirectValues) (types : List RecordType) : DirectValues where
  cname := if .cname ∈ types then values.cname else none
  txt := if .txt ∈ types then values.txt else none

structure Address where
  detected : PerFamily String
  state : PerFamily AddressState
  source : PerFamily String
  detectedAt : Nat
  deriving DecidableEq

structure Record where
  id : String
  provider : Provider
  hostname : String
  recordTypes : List RecordType
  ttl : Nat
  enabled : Bool
  detected : PerFamily String
  state : PerFamily AddressState
  publishedIp : PerFamily (Option String)
  recordValues : DirectValues
  publishedValues : DirectValues
  source : String
  status : FlowStatus
  lastDetectedAt : Nat
  lastUpdatedAt : Option Nat
  lastError : Option String
  stability : PerType Tracker
  lastRecordResults : List (RecordType × Result)

-- ---------------------------------------------------------------------------
-- Reading
-- ---------------------------------------------------------------------------

section
variable [Unicode]

def readValues (value : Json) : DirectValues :=
  let d := asDict value
  let cname := strip (get d "CNAME").toStr
  let txt := (get d "TXT").toStr
  { cname := if get d "CNAME" = .null ∨ strip cname = "" then none else some (domainValue cname)
    txt := if get d "TXT" = .null ∨ strip txt = "" then none else some txt }

def normalTracker (value : Json) : PerType Tracker :=
  .of fun t => match get (asDict value) t.name with
    | .dict item =>
      { candidate := match t with
          | .a => ipText (get item "candidate") 4
          | .aaaa => ipText (get item "candidate") 6
          | _ => ""
        stableCount := min 2 (safeInt (get item "stableCount") 0)
        retryAttempt := min 4 (safeInt (get item "retryAttempt") 0)
        nextRetryAt := safeInt (get item "nextRetryAt") 0
        authError := boolOf (get item "authError") false }
    | _ => {}

def normalResults (value : Json) : List (RecordType × Result) :=
  recordTypes.filterMap fun t => match get (asDict value) t.name with
    | .dict item => some (t,
      { success := (get item "success").truthy
        provider := text (get item "provider")
        recordId := text (get item "recordId")
        changed := (get item "changed").truthy
        status := text (get item "status")
        errorCode := text (get item "errorCode")
        errorMessage := takeChars 240 (text (get item "errorMessage")) })
    | _ => none

def Family.key (f : Family) (ipv4 ipv6 : String) : String :=
  match f with
  | .ipv4 => ipv4
  | .ipv6 => ipv6

def normalAddress : Json → Option Address
  | .dict d =>
    let detected := PerFamily.of fun f =>
      ipText (get d (f.key "detectedIpv4" "detectedIpv6")) f.version
    some
      { detected := detected
        state := .of fun f =>
          let state := f.stateOf (text (get d (f.key "ipv4State" "ipv6State")))
          if state = .public ∧ detected.get f = "" then .unavailable else state
        source := .of fun f => text (get d (f.key "ipv4Source" "ipv6Source"))
        detectedAt := safeInt (get d "detectedAt") 0 }
  | _ => none

def readTypes (value : Json) : List RecordType :=
  let names : List Json := match value with
    | .str s => [.str s]
    | .list items => items
    | _ => [.str "A", .str "AAAA"]
  let types := names.filterMap fun item => RecordType.ofName (Unicode.upper (text item))
  let types := if types.isEmpty then [.a, .aaaa] else types
  if .cname ∈ types then [.cname] else types

def readRecord (newId : String) (d : Entries) (provider : Provider) : Record :=
  let types := readTypes (get d "recordTypes")
  let id := text (get d "id")
  let enabled := boolOf (getD d "enabled" (.bool true)) true
  { id := if id = "" then newId else id
    provider := provider
    hostname := text (get d "hostname")
    recordTypes := types.eraseDups
    ttl := min 86400 (max 60 (safeInt (get d "ttl") 600))
    enabled := enabled
    detected := .of fun f => ipText (get d (f.key "detectedIpv4" "detectedIpv6")) f.version
    state := .of fun f => f.stateOf (text (get d (f.key "ipv4State" "ipv6State")))
    publishedIp := .of fun f =>
      optionalText (ipText (get d (f.key "publishedIpv4" "publishedIpv6")) f.version)
    recordValues := (readValues (get d "recordValues")).restrict types
    publishedValues := (readValues (get d "publishedValues")).restrict types
    source := text (get d "source")
    status := if enabled then (FlowStatus.ofName (text (get d "status"))).getD .waiting
      else .disabled
    lastDetectedAt := safeInt (get d "lastDetectedAt") 0
    lastUpdatedAt := optionalInt (get d "lastUpdatedAt")
    lastError := optionalText (text (get d "lastError"))
    stability := normalTracker (get d "stability")
    lastRecordResults := normalResults (get d "lastRecordResults") }

def normalRecord (newId : String) : Json → Option Record
  | .dict d => (Provider.ofId (Unicode.lower (text (get d "provider")))).map (readRecord newId d)
  | _ => none

end

-- ---------------------------------------------------------------------------
-- Writing
-- ---------------------------------------------------------------------------

def ofOption (f : α → Json) (value : Option α) : Json := (value.map f).getD .null

def ofNat (n : Nat) : Json := .int n

def DirectValues.toJson (values : DirectValues) : Json :=
  .dict ((values.cname.map fun s => ("CNAME", .str s)).toList ++
    (values.txt.map fun s => ("TXT", .str s)).toList)

def Tracker.toJson (t : Tracker) : Json :=
  .dict [("candidate", .str t.candidate), ("stableCount", ofNat t.stableCount),
    ("retryAttempt", ofNat t.retryAttempt), ("nextRetryAt", ofNat t.nextRetryAt),
    ("authError", .bool t.authError)]

def Result.toJson (t : RecordType) (r : Result) : Json :=
  .dict [("success", .bool r.success), ("provider", .str r.provider), ("recordType", .str t.name),
    ("recordId", .str r.recordId), ("changed", .bool r.changed), ("status", .str r.status),
    ("errorCode", .str r.errorCode), ("errorMessage", .str r.errorMessage)]

def Address.toJson (a : Address) : Json :=
  .dict [("detectedIpv4", .str a.detected.ipv4), ("detectedIpv6", .str a.detected.ipv6),
    ("ipv4State", .str a.state.ipv4.name), ("ipv6State", .str a.state.ipv6.name),
    ("ipv4Source", .str a.source.ipv4), ("ipv6Source", .str a.source.ipv6),
    ("detectedAt", ofNat a.detectedAt)]

def Record.entries (r : Record) : Entries :=
  [("id", .str r.id), ("provider", .str r.provider.id), ("hostname", .str r.hostname),
    ("recordTypes", .list (r.recordTypes.map fun t => .str t.name)), ("ttl", ofNat r.ttl),
    ("enabled", .bool r.enabled), ("detectedIpv4", .str r.detected.ipv4),
    ("detectedIpv6", .str r.detected.ipv6), ("ipv4State", .str r.state.ipv4.name),
    ("ipv6State", .str r.state.ipv6.name), ("publishedIpv4", ofOption .str r.publishedIp.ipv4),
    ("publishedIpv6", ofOption .str r.publishedIp.ipv6), ("recordValues", r.recordValues.toJson),
    ("publishedValues", r.publishedValues.toJson), ("source", .str r.source),
    ("status", .str r.status.name), ("lastDetectedAt", ofNat r.lastDetectedAt),
    ("lastUpdatedAt", ofOption ofNat r.lastUpdatedAt), ("lastError", ofOption .str r.lastError),
    ("stability", .dict (Ddns.recordTypes.map fun t => (t.name, (r.stability.get t).toJson))),
    ("lastRecordResults", .dict (r.lastRecordResults.map fun e => (e.1.name, e.2.toJson e.1)))]

def Record.toJson (r : Record) : Json := .dict r.entries

-- ---------------------------------------------------------------------------
-- Reading back
-- ---------------------------------------------------------------------------

variable [Unicode]

theorem normalRecord_toJson (newId : String) (r : Record) :
    normalRecord newId r.toJson = some (readRecord newId r.entries r.provider) := by
  have hprovider : get r.entries "provider" = .str r.provider.id := rfl
  simp only [Record.toJson, normalRecord, hprovider, ofId_id, Option.map_some]

/-- A value is read back without its white space, and a name without its dot. -/
theorem readValues_toJson (values : DirectValues) : readValues values.toJson =
    { cname := (values.cname.filter fun s => strip s ≠ "").map domainValue
      txt := values.txt.filter fun s => strip s ≠ "" } := by
  obtain ⟨cname, txt⟩ := values
  have hcname : get (asDict (DirectValues.toJson ⟨cname, txt⟩)) "CNAME" = ofOption .str cname := by
    cases cname <;> cases txt <;> rfl
  have htxt : get (asDict (DirectValues.toJson ⟨cname, txt⟩)) "TXT" = ofOption .str txt := by
    cases cname <;> cases txt <;> rfl
  unfold readValues
  simp only [hcname, htxt, DirectValues.mk.injEq]
  constructor
  · cases cname with
    | none => rfl
    | some s =>
      simp only [ofOption, toStr, strip_strip, domainValue]
      by_cases h : strip s = "" <;> simp [Option.filter, domainValue, h]
  · cases txt with
    | none => rfl
    | some s => by_cases h : strip s = "" <;> simp [ofOption, toStr, Option.filter, h]

end LabProbe.Ddns
