import LabProbe.Lib.Rows
import LabProbe.Ddns.Record

/-!
# The DDNS store

`LabDdnsStore`: the records with the address they follow, as they are in
memory and as they were last written. An update takes the lock twice and
talks to the provider in between; `Update` has its parts. The event that wakes
the background worker is left out: an update may begin at any time.
-/

namespace LabProbe.Ddns

open Py Py.Json
open Rows (updateFirst)

-- ---------------------------------------------------------------------------
-- Reading a record
-- ---------------------------------------------------------------------------

def Record.published (r : Record) : RecordType → String
  | .a => (r.publishedIp.get .ipv4).getD ""
  | .aaaa => (r.publishedIp.get .ipv6).getD ""
  | t => (r.publishedValues.get t).getD ""

theorem published_type (r : Record) (f : Family) :
    r.published f.type = (r.publishedIp.get f).getD "" := by cases f <;> rfl

/-- The value the record should publish: what was detected, or its own. -/
def Record.value (r : Record) : RecordType → String
  | .a => r.detected.get .ipv4
  | .aaaa => r.detected.get .ipv6
  | t => (r.recordValues.get t).getD ""

/-- The state is public and the detected address is not the published one. -/
def Record.awaits (r : Record) (f : Family) : Bool :=
  r.state.get f = .public ∧ r.detected.get f ≠ "" ∧ r.detected.get f ≠ r.published f.type

theorem awaits_iff {r : Record} {f : Family} : r.awaits f ↔
    r.state.get f = .public ∧ r.detected.get f ≠ "" ∧ r.detected.get f ≠ r.published f.type := by
  simp [Record.awaits]

def Record.hasPublished (r : Record) : Bool :=
  families.any (fun f => r.published f.type ≠ "") || !r.publishedValues.isEmpty

def Record.freshStatus (r : Record) : FlowStatus :=
  if r.detected.ipv4 ≠ "" ∨ r.detected.ipv6 ≠ "" ∨ !r.recordValues.isEmpty then .detected else .waiting

def addressIsFresh (r : Record) (now : Nat) : Bool :=
  (0 < r.lastDetectedAt && r.lastDetectedAt < 1000000000) ||
    (0 < r.lastDetectedAt && r.lastDetectedAt ≤ now + 30 && now ≤ r.lastDetectedAt + 180)

-- ---------------------------------------------------------------------------
-- Loading and saving
-- ---------------------------------------------------------------------------

structure Store where
  address : Option Address := none
  records : List Record := []
  /-- The document written last. -/
  disk : Option Json := none
  secrets : List (String × List (String × String)) := []

def rootJson (address : Option Address) (records : List Record) : Json :=
  .dict [("version", .int 1), ("address", (address.map Address.toJson).getD (.dict [])),
    ("records", .list (records.map Record.toJson))]

/-- `_save_locked`. -/
def Store.save (s : Store) : Store := { s with disk := some (rootJson s.address s.records) }

def Record.restarted (r : Record) : Record :=
  { r with stability := .of fun t => { r.stability.get t with candidate := "", stableCount := 0 } }

section
variable [Unicode]

def storedRecords (raw : Option Json) : List Json :=
  (get (asDict (raw.getD .null)) "records").list?.getD []

/-- `_load`, of the document on disk; the secrets are a file of their own. -/
def load (newIds : Nat → String) (raw : Option Json)
    (secrets : List (String × List (String × String))) : Store where
  address := normalAddress (get (asDict (raw.getD .null)) "address")
  records := (storedRecords raw).zipIdx.filterMap fun item =>
    (normalRecord (newIds item.2) item.1).map Record.restarted
  disk := raw
  secrets := secrets

-- ---------------------------------------------------------------------------
-- Reports of the relay
-- ---------------------------------------------------------------------------

/-- The tracker of a family after a sample with a new time; `awaited` says
that the sample is public and not yet published. -/
def Tracker.observe (t : Tracker) (tracked awaited : Bool) (detected published : String) : Tracker :=
  if !tracked then { t with candidate := "", stableCount := 0 }
  else if awaited then
    if t.candidate = detected then { t with stableCount := min 2 (t.stableCount + 1) }
    else { candidate := detected, stableCount := 1 }
  else if detected = published then {}
  else { t with candidate := "", stableCount := 0 }

def Record.trackers (r : Record) : PerType Tracker :=
  families.foldl (fun stability f => stability.set f.type
    ((stability.get f.type).observe (f.type ∈ r.recordTypes) (r.awaits f)
      (r.detected.get f) (r.published f.type))) r.stability

def Record.resets (r : Record) : Bool :=
  families.any fun f => f.type ∈ r.recordTypes ∧ r.awaits f = false ∧
    ((r.stability.get f.type).candidate ≠ "" ∨ (r.stability.get f.type).stableCount ≠ 0)

def Record.reportStatus (r : Record) : FlowStatus × Option String :=
  if !r.enabled then (.disabled, r.lastError)
  else if r.status = .error ∨ r.status = .updating then (r.status, r.lastError)
  else if families.any (fun f => f.type ∈ r.recordTypes ∧ r.awaits f) then (.detected, none)
  else if r.hasPublished then (.published, none)
  else if [RecordType.cname, .txt].any (fun t => t ∈ r.recordTypes ∧ strip (r.value t) ≠ "") then
    (.detected, none)
  else (.waiting, none)

def Address.sources (a : Address) : String :=
  ",".intercalate ([a.source.ipv4, a.source.ipv6].filter (· ≠ ""))

/-- `record.update(values)`. -/
def Record.sample (address : Address) (r : Record) : Record :=
  { r with detected := address.detected
           state := address.state
           source := address.sources
           lastDetectedAt := address.detectedAt }

/-- A record takes a sample; the second part says that it is worth saving. -/
def Record.acceptAddress (sampleChanged : Bool) (address : Address) (r : Record) : Record × Bool :=
  let sampled := r.sample address
  let tracked :=
    { sampled with stability := if sampleChanged then sampled.trackers else sampled.stability }
  let (status, lastError) := tracked.reportStatus
  ({ tracked with status := status, lastError := lastError },
    decide (r.detected ≠ sampled.detected ∨ r.state ≠ sampled.state ∨ r.source ≠ sampled.source) ||
      (sampleChanged && sampled.resets) || decide (r.status ≠ status ∨ r.lastError ≠ lastError))

/-- A sample without a time takes that of the address before it. -/
def Address.dated (now : Nat) (previous : Option Address) (a : Address) : Address :=
  let last := (previous.map Address.detectedAt).getD 0
  if a.detectedAt ≠ 0 then a else { a with detectedAt := if last = 0 then now else last }

def Store.sampleChanged (s : Store) (address : Address) : Bool :=
  s.address.map Address.detectedAt ≠ some address.detectedAt

def Store.sample (s : Store) (now : Nat) (value : Json) : Option Address :=
  (normalAddress value).map (Address.dated now s.address)

/-- `accept_address`, after the report is read. -/
def Store.observe (s : Store) (address : Address) : Store :=
  let records := s.records.map (Record.acceptAddress (s.sampleChanged address) address)
  let changed := s.address.map (fun a => { a with detectedAt := address.detectedAt }) ≠ some address ∨
    records.any Prod.snd
  let s := { s with address := some address, records := records.map Prod.fst }
  if changed then s.save else s

def Store.acceptAddress (s : Store) (now : Nat) (value : Json) : Store :=
  match s.sample now value with
  | some address => s.observe address
  | none => s

-- ---------------------------------------------------------------------------
-- Requests of the App
-- ---------------------------------------------------------------------------

inductive RequestError where
  | valueError (message : String)
  | keyError (recordId : String)
  deriving DecidableEq

def validateRecordInput (value : Entries) (r : Record) : Except RequestError Unit := do
  let names : List Json := match get value "recordTypes" with
    | .str s => [.str s]
    | .list items => items
    | _ => []
  let requested := ((names.map text).filter (· ≠ "")).map Unicode.upper
  if requested.contains "CNAME" && requested.any (· ≠ "CNAME") then
    throw (.valueError "CNAME cannot be combined with another record type")
  if let t :: _ := r.recordTypes.filter fun t => !r.provider.supports t then
    throw (.valueError ("provider does not support record type: " ++ t.name))
  if .cname ∈ r.recordTypes ∧ !validCname (r.value .cname) r.hostname then
    throw (.valueError "CNAME target must be a different domain name")
  if .txt ∈ r.recordTypes ∧ strip (r.value .txt) = "" then
    throw (.valueError "TXT value is required")

def Record.keeps (r : Record) : RecordType → Bool
  | .a | .aaaa => true
  | t => t ∈ r.recordTypes

/-- The record of an edit: the request's, with what the store keeps of the
old one. -/
def Record.edited (recordId : String) (value : Entries) (r old : Record) : Record :=
  let has := fun key => (Dict.get? value key).isSome
  let enabled := boolOf (getD value "enabled" (.bool old.enabled)) true
  let kept :=
    { r with id := recordId
             ttl := if has "ttl" then r.ttl else old.ttl
             enabled := enabled
             detected := old.detected
             state := old.state
             publishedIp := old.publishedIp
             recordValues := if has "recordValues" then r.recordValues
               else old.recordValues.restrict r.recordTypes
             publishedValues := old.publishedValues.restrict r.recordTypes
             source := old.source
             status := old.status
             lastDetectedAt := old.lastDetectedAt
             lastUpdatedAt := old.lastUpdatedAt
             lastError := old.lastError
             stability := old.stability
             lastRecordResults := old.lastRecordResults }
  { kept with status :=
      if !enabled then .disabled
      else if old.recordTypes ≠ r.recordTypes ∨ old.recordValues ≠ r.recordValues ∨
        old.status = .disabled then kept.freshStatus
      else old.status }

/-- A new record takes what the store knows of the address. -/
def Record.created (address : Option Address) (r : Record) : Record :=
  let kept :=
    { r with detected := (address.map Address.detected).getD ⟨"", ""⟩
             state := (address.map Address.state).getD ⟨.unavailable, .unavailable⟩
             source := (address.map Address.sources).getD ""
             lastDetectedAt := (address.map Address.detectedAt).getD 0 }
  { kept with status := if !r.enabled then .disabled else kept.freshStatus }

/-- `save_record` before it takes the lock; `newId` is the id a record
without one would get. -/
def readRequest (newId : String) (value : Entries) : Except RequestError Record :=
  match normalRecord newId (.dict value) with
  | some r =>
    if r.hostname = "" then .error (.valueError "provider and hostname are required")
    else (validateRecordInput value r).map fun _ => r
  | none => .error (.valueError "provider and hostname are required")

def Store.saveRecord (s : Store) (newId recordId : String) (value : Entries) :
    Except RequestError (Store × Record) :=
  match readRequest newId value with
  | .error e => .error e
  | .ok r =>
    if recordId = "" then
      .ok ({ s with records := s.records ++ [r.created s.address] }.save, r.created s.address)
    else match s.records.find? (·.id == recordId) with
      | none => .error (.keyError recordId)
      | some old =>
        .ok ({ s with records :=
            updateFirst (·.id == recordId) (r.edited recordId value) s.records }.save,
          r.edited recordId value old)

def Store.deleteRecord (s : Store) (recordId : String) : Store :=
  let records := s.records.filter (·.id != recordId)
  if records.length = s.records.length then s else { s with records := records }.save

def Store.saveCredentials (s : Store) (recordId : String) (credentials : Entries) : Store :=
  let safe := (credentials.map fun e => (e.1, text e.2)).filter (·.2 ≠ "")
  if safe.isEmpty then s else { s with secrets := Dict.set s.secrets recordId safe }

-- ---------------------------------------------------------------------------
-- The records after an operation
-- ---------------------------------------------------------------------------

omit [Unicode] in
theorem save_records (s : Store) : s.save.records = s.records := rfl

omit [Unicode] in
theorem observe_address (s : Store) (address : Address) :
    (s.observe address).address = some address := by
  unfold Store.observe
  dsimp only
  split <;> rfl

omit [Unicode] in
theorem observe_records (s : Store) (address : Address) : (s.observe address).records =
    s.records.map fun r => (r.acceptAddress (s.sampleChanged address) address).1 := by
  unfold Store.observe
  dsimp only
  split <;> simp [save_records, Function.comp_def]

omit [Unicode] in
@[simp] theorem published_acceptAddress (sampleChanged : Bool) (address : Address) (r : Record)
    (t : RecordType) : (r.acceptAddress sampleChanged address).1.published t = r.published t := by
  cases t <;> rfl

omit [Unicode] in
@[simp] theorem published_created (address : Option Address) (r : Record) (t : RecordType) :
    (r.created address).published t = r.published t := by
  cases t <;> rfl

theorem published_edited (recordId : String) (value : Entries) (r old : Record) (t : RecordType) :
    (r.edited recordId value old).published t = if r.keeps t then old.published t else "" := by
  cases t with
  | a | aaaa => rfl
  | cname | txt =>
    unfold Record.edited Record.published Record.keeps DirectValues.restrict DirectValues.get
    dsimp only
    split <;> simp_all

theorem mem_acceptAddress {s : Store} {r' : Record}
    (hr : r' ∈ (s.acceptAddress now value).records) :
    (s.sample now value = none ∧ r' ∈ s.records) ∨ ∃ address, s.sample now value = some address ∧
      ∃ r ∈ s.records, r' = (r.acceptAddress (s.sampleChanged address) address).1 := by
  unfold Store.acceptAddress at hr
  cases hsample : s.sample now value with
  | none => exact .inl ⟨rfl, by simpa only [hsample] using hr⟩
  | some address =>
    simp only [hsample, observe_records] at hr
    obtain ⟨r, hold, rfl⟩ := List.mem_map.mp hr
    exact .inr ⟨address, rfl, r, hold, rfl⟩

theorem mem_saveRecord {s s' : Store} {r' out : Record}
    (h : s.saveRecord newId recordId value = .ok (s', out)) (hr : r' ∈ s'.records) :
    r' ∈ s.records ∨ ∃ r, readRequest newId value = .ok r ∧
      ((recordId = "" ∧ r' = r.created s.address) ∨ (recordId ≠ "" ∧
        ∃ old, s.records.find? (·.id == recordId) = some old ∧ r' = r.edited recordId value old)) := by
  unfold Store.saveRecord at h
  cases hread : readRequest newId value with
  | error e => simp [hread] at h
  | ok r =>
    rw [hread] at h
    dsimp only at h
    split at h
    · rename_i hid
      cases h
      rcases List.mem_append.mp hr with hr | hr
      · exact .inl hr
      · exact .inr ⟨r, rfl, .inl ⟨hid, List.mem_singleton.mp hr⟩⟩
    · rename_i hid
      cases hfind : s.records.find? (·.id == recordId) with
      | none => simp [hfind] at h
      | some old =>
        rw [hfind] at h
        cases h
        rcases Rows.mem_updateFirst hr with hr | ⟨old', hold, rfl⟩
        · exact .inl hr
        · exact .inr ⟨r, rfl, .inr ⟨hid, old', hfind ▸ hold, rfl⟩⟩

omit [Unicode] in
/-- The operation keeps the address, and the records with their document, or
the document is that of the store. -/
structure Store.Writes (s s' : Store) : Prop where
  address : s'.address = s.address
  disk : s'.disk = s.disk ∧ s'.records = s.records ∨ s'.disk = some (rootJson s'.address s'.records)

omit [Unicode] in
theorem Store.Writes.refl (s : Store) : s.Writes s := ⟨rfl, .inl ⟨rfl, rfl⟩⟩

omit [Unicode] in
theorem save_writes (s : Store) (records : List Record) :
    s.Writes { s with records := records }.save := ⟨rfl, .inr rfl⟩

omit [Unicode] in
theorem observe_disk (s : Store) (address : Address) :
    (s.observe address).disk = s.disk ∨ (s.observe address).disk =
      some (rootJson (s.observe address).address (s.observe address).records) := by
  unfold Store.observe
  dsimp only
  split
  · exact .inr rfl
  · exact .inl rfl

theorem saveRecord_writes {s s' : Store} {out : Record}
    (h : s.saveRecord newId recordId value = .ok (s', out)) : s.Writes s' := by
  unfold Store.saveRecord at h
  cases hread : readRequest newId value with
  | error e => simp [hread] at h
  | ok r =>
    rw [hread] at h
    dsimp only at h
    split at h
    · cases h
      exact save_writes _ _
    · split at h
      · simp at h
      · cases h
        exact save_writes _ _

omit [Unicode] in
theorem deleteRecord_writes (s : Store) (recordId : String) : s.Writes (s.deleteRecord recordId) := by
  unfold Store.deleteRecord
  dsimp only
  split
  · exact .refl s
  · exact save_writes s _

theorem saveCredentials_writes (s : Store) (recordId : String) (credentials : Entries) :
    s.Writes (s.saveCredentials recordId credentials) := by
  unfold Store.saveCredentials
  dsimp only
  split
  · exact .refl s
  · exact ⟨rfl, .inl ⟨rfl, rfl⟩⟩

omit [Unicode] in
theorem mem_deleteRecord {s : Store} {r : Record} (hr : r ∈ (s.deleteRecord recordId).records) :
    r ∈ s.records := by
  unfold Store.deleteRecord at hr
  dsimp only at hr
  split at hr
  · exact hr
  · exact List.mem_of_mem_filter hr

theorem saveCredentials_records (s : Store) (recordId : String) (credentials : Entries) :
    (s.saveCredentials recordId credentials).records = s.records := by
  unfold Store.saveCredentials
  dsimp only
  split <;> rfl

end

end LabProbe.Ddns
