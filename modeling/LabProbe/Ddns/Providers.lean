import LabProbe.Lib.Check
import LabProbe.Py.Json
import Mathlib.Algebra.Order.BigOperators.Group.List
import Mathlib.Data.List.Find

/-!
# The records at a DNS provider

`sync_record` of AliDNS, DNSPod and Cloudflare: the records that match the name
and the type are listed, one page of them, and what is found there decides
whether a record is created, changed or left. The three differ in what they check
before, in the look-up, in how a record is recognised and in what a write sets.

A provider keeps a zone as a list of records and answers a look-up with the first
page of those that match. A request may be refused, and the answer to a write may
be lost. How requests are signed and errors are worded is left out.
-/

namespace LabProbe.Ddns.Providers

open Py Json

-- ---------------------------------------------------------------------------
-- The provider
-- ---------------------------------------------------------------------------

structure Record where
  id : String
  name : String
  type : String
  value : String
  line : String := ""
  ttl : Option Int := none
  other : Entries := []
  deriving DecidableEq

structure Query where
  zone : String
  name : String
  type : String
  line : Option String := none
  pageSize : Option Nat := none

/-- What a write sets; the rest of a record stays. -/
structure Draft where
  name : String
  type : String
  value : String
  line : Option String := none
  ttl : Option Int := none
  other : Entries := []
  deriving DecidableEq

inductive Write where
  | create (draft : Draft)
  | update (recordId : String) (draft : Draft)
  deriving DecidableEq

def Record.written (r : Record) (d : Draft) : Record where
  id := r.id
  name := d.name
  type := d.type
  value := d.value
  line := d.line.getD r.line
  ttl := d.ttl.or r.ttl
  other := Dict.update r.other d.other

/-- How a provider matches, pages and lists. Its filter may let more pass than
the records with the name and the type, and no fewer. -/
structure Service where
  isMatch : Query → Record → Bool
  pageSize : Query → Nat
  place : List Record → Nat
  newId : List Record → String
  admits : ∀ {q r}, r.name = q.name → r.type = q.type → (∀ line ∈ q.line, r.line = line) →
    isMatch q r = true
  pageSize_le : ∀ {q n}, q.pageSize = some n → pageSize q ≤ n
  place_le : ∀ records, place records ≤ records.length
  newId_fresh : ∀ records, newId records ∉ records.map (·.id)

/-- The records of a zone; no two share an id. -/
structure Zone where
  records : List Record
  ids : (records.map (·.id)).Nodup

theorem Zone.eq_of_id (z : Zone) {r r' : Record} (hr : r ∈ z.records) (hr' : r' ∈ z.records)
    (h : r.id = r'.id) : r = r' :=
  List.inj_on_of_nodup_map z.ids hr hr' h

theorem mem_first_insertIdx {α : Type} {p : α → Bool} {n i : Nat} {l : List α} {x y : α}
    (h : y ∈ ((l.insertIdx i x).filter p).take n) : y = x ∨ y ∈ (l.filter p).take n := by
  induction l generalizing n i with
  | nil =>
    cases i with
    | zero => exact .inl (by simpa using (List.mem_filter.mp (List.mem_of_mem_take h)).1)
    | succ i => exact .inr h
  | cons b l ih =>
    cases i with
    | zero =>
      rw [List.insertIdx_zero, List.filter_cons] at h
      split at h
      · cases n with
        | zero => simp at h
        | succ n =>
          refine (List.mem_cons.mp h).imp_right fun h => ?_
          exact (List.take_sublist_take_left (Nat.le_succ n)).subset h
      · exact .inr h
    | succ i =>
      rw [List.insertIdx_succ_cons, List.filter_cons] at h
      split at h
      · rename_i hb
        rw [List.filter_cons_of_pos hb]
        cases n with
        | zero => simp at h
        | succ n =>
          rw [List.take_succ_cons, List.mem_cons] at h ⊢
          rcases h with rfl | h
          · exact .inr (.inl rfl)
          · exact (ih h).imp_right .inr
      · rename_i hb
        rw [List.filter_cons_of_neg hb]
        exact ih h

def Record.updated (recordId : String) (d : Draft) (r : Record) : Record :=
  if r.id = recordId then r.written d else r

@[simp] theorem Record.id_updated (recordId : String) (d : Draft) (r : Record) :
    (r.updated recordId d).id = r.id := by
  unfold Record.updated
  split <;> rfl

namespace Service

def page (s : Service) (q : Query) (z : Zone) : List Record :=
  (z.records.filter (s.isMatch q)).take (s.pageSize q)

def created (s : Service) (d : Draft) (z : Zone) : Record :=
  Record.written { id := s.newId z.records, name := "", type := "", value := "" } d

theorem place_perm (s : Service) (d : Draft) (z : Zone) :
    (z.records.insertIdx (s.place z.records) (s.created d z)).Perm (s.created d z :: z.records) :=
  List.perm_insertIdx _ _ (s.place_le z.records)

/-- What a write does to the zone. -/
def serve (s : Service) (z : Zone) : Write → Zone
  | .create d =>
    { records := z.records.insertIdx (s.place z.records) (s.created d z)
      ids := by
        rw [((s.place_perm d z).map _).nodup_iff, List.map_cons, List.nodup_cons]
        exact ⟨s.newId_fresh z.records, z.ids⟩ }
  | .update recordId d =>
    { records := z.records.map (Record.updated recordId d)
      ids := by simpa [Function.comp_def] using z.ids }

variable (s : Service) {z : Zone} {q : Query} {d : Draft} {r found : Record}

theorem isMatch_written (old : Record) (hname : d.name = q.name) (htype : d.type = q.type)
    (hline : ∀ line ∈ q.line, d.line.getD old.line = line) :
    s.isMatch q (old.written d) = true :=
  s.admits hname htype hline

theorem mem_of_mem_page (h : r ∈ s.page q z) : r ∈ z.records ∧ s.isMatch q r = true :=
  List.mem_filter.mp (List.mem_of_mem_take h)

theorem mem_serve_create (h : r ∈ z.records) : r ∈ (s.serve z (.create d)).records :=
  (s.place_perm d z).mem_iff.mpr (List.mem_cons_of_mem _ h)

theorem mem_page_create (h : r ∈ s.page q (s.serve z (.create d))) :
    r = s.created d z ∨ r ∈ s.page q z :=
  mem_first_insertIdx h

theorem page_update (hfound : found ∈ s.page q z) (hmatch : s.isMatch q (found.written d) = true) :
    s.page q (s.serve z (.update found.id d)) = (s.page q z).map (Record.updated found.id d) := by
  obtain ⟨hmem, hold⟩ := s.mem_of_mem_page hfound
  simp only [page, serve, List.filter_map, List.map_take]
  congr 2
  apply List.filter_congr
  intro r hr
  rw [Function.comp_apply, Record.updated]
  split
  · rename_i hid
    rw [z.eq_of_id hr hmem hid, hmatch, hold]
  · rfl

end Service

inductive Fate where
  | answered
  | refused (code : String)
  | lost (code : String)

structure Fates where
  list : Fate
  write : Fate

-- ---------------------------------------------------------------------------
-- The adapters
-- ---------------------------------------------------------------------------

structure ProviderResult where
  ok : Bool
  status : String
  provider : String
  recordType : String
  recordId : String := ""
  changed : Bool := false
  errorCode : String := ""
  deriving DecidableEq

def failure (provider recordType code : String) : ProviderResult where
  ok := false
  status := "error"
  provider := provider
  recordType := recordType
  errorCode := if code = "" then "provider_error" else code

def success (provider recordType : String) (changed : Bool) (recordId : String) : ProviderResult where
  ok := true
  status := "success"
  provider := provider
  recordType := recordType
  recordId := recordId
  changed := changed

structure Args where
  hostname : String
  recordType : String
  value : String
  ttl : Int
  credentials : List (String × String)

def Args.credential (a : Args) (key : String) : String := (Dict.get? a.credentials key).getD ""

def Args.either (a : Args) (key other : String) : String :=
  if a.credential key = "" then a.credential other else a.credential key

inductive Provider where
  | alidns | dnspod | cloudflare
  deriving DecidableEq

def Provider.id : Provider → String
  | .alidns => "alidns"
  | .dnspod => "dnspod"
  | .cloudflare => "cloudflare"

section
variable [Unicode]

def recordTypes : List String := ["A", "AAAA", "CNAME", "TXT"]

def supportsRecordType (recordType : String) : Bool :=
  recordTypes.contains (Unicode.upper recordType)

def unsupportedResult (p : Provider) (recordType : String) : ProviderResult where
  ok := false
  status := "unsupported_record_type"
  provider := p.id
  recordType := recordType
  errorCode := "unsupported_record_type"

omit [Unicode] in
def required (p : Provider) (a : Args) (keys : List String) : Except ProviderResult Unit :=
  Check.require (keys.all fun key => strip (a.credential key) ≠ "")
    (failure p.id a.recordType "credential_error")

def dnsName (s : String) : String := Unicode.lower (rstripChar '.' (strip s))

def zoneRr (p : Provider) (a : Args) : Except ProviderResult (String × String) :=
  let hostname := dnsName a.hostname
  let zone := dnsName (a.either "zone" "domain")
  if zone = "" then .error (failure p.id a.recordType "zone_required")
  else if hostname = zone then .ok (zone, "@")
  else if ('.' :: zone.toList).isSuffixOf hostname.toList then
    .ok (zone, String.ofList (hostname.toList.take (hostname.length - (zone.length + 1))))
  else .error (failure p.id a.recordType "zone_mismatch")

/-- What a call asks the provider for and how it recognises the record. What it
writes passes its own look-up and, where the type is in capitals, is recognised. -/
structure Plan (a : Args) where
  query : Query
  same : Record → Bool
  create : Draft
  update : Record → Draft
  create_value : create.value = a.value
  update_value : ∀ r : Record, (update r).value = a.value
  create_found : create.name = query.name ∧ create.type = query.type ∧
    ∀ line ∈ query.line, ∀ old : String, create.line.getD old = line
  update_found : ∀ r : Record, (update r).name = query.name ∧ (update r).type = query.type ∧
    ∀ line ∈ query.line, ∀ old : String, (update r).line.getD old = line
  same_create : ∀ r : Record, same (r.written create) = true ↔
    Unicode.upper a.recordType = a.recordType
  same_update : ∀ r r' : Record, same (r.written (update r')) = true ↔
    Unicode.upper a.recordType = a.recordType

omit [Unicode] in
def normalizeTtl (ttl : Int) : Int := min 86400 (max 600 ttl)

def sameRecord (recordType rr : String) (r : Record) : Bool :=
  decide (Unicode.upper r.type = recordType) && decide (r.name = rr)

theorem sameRecord_iff {recordType rr : String} {r : Record} :
    sameRecord recordType rr r = true ↔ Unicode.upper r.type = recordType ∧ r.name = rr := by
  simp [sameRecord]

def aliDnsPlan (a : Args) : Except ProviderResult (Plan a) := do
  Check.require (supportsRecordType a.recordType) (unsupportedResult .alidns a.recordType)
  required .alidns a ["AccessKeyId", "AccessKeySecret"]
  let (zone, rr) ← zoneRr .alidns a
  let draft : Draft :=
    { name := rr, type := a.recordType, value := a.value, ttl := some (normalizeTtl a.ttl) }
  return {
    query := { zone, name := rr, type := a.recordType, pageSize := some 100 }
    same := sameRecord a.recordType rr
    create := draft
    update := fun _ => draft
    create_value := rfl
    update_value := fun _ => rfl
    create_found := by simp [draft]
    update_found := by simp [draft]
    same_create := by simp [sameRecord_iff, Record.written, draft]
    same_update := by simp [sameRecord_iff, Record.written, draft] }

def dnsPodPlan (a : Args) : Except ProviderResult (Plan a) := do
  Check.require (supportsRecordType a.recordType) (unsupportedResult .dnspod a.recordType)
  required .dnspod a ["SecretId", "SecretKey"]
  let (zone, rr) ← zoneRr .dnspod a
  -- the minimum of the time to live varies by plan, so none is sent
  let draft : Draft := { name := rr, type := a.recordType, value := a.value, line := some "默认" }
  return {
    query := { zone, name := rr, type := a.recordType, line := some "默认" }
    same := sameRecord a.recordType rr
    create := draft
    update := fun _ => draft
    create_value := rfl
    update_value := fun _ => rfl
    create_found := by simp [draft]
    update_found := by simp [draft]
    same_create := by simp [sameRecord_iff, Record.written, draft]
    same_update := by simp [sameRecord_iff, Record.written, draft] }

omit [Unicode] in
def proxiable : List String := ["A", "AAAA", "CNAME"]

omit [Unicode] in
def metaKeys : List String := ["id", "zone_id", "zone_name", "created_on", "modified_on", "meta"]

omit [Unicode] in
/-- What an update sends back of the record it found. -/
def resent (r : Record) : Entries :=
  let kept := r.other.filter fun e => e.1 ∉ metaKeys
  if (Dict.get? kept "proxied").isSome then kept else kept ++ [("proxied", .bool false)]

def sameHost (recordType hostname : String) (r : Record) : Bool :=
  decide (Unicode.lower (rstripChar '.' r.name) = Unicode.lower (rstripChar '.' hostname)) &&
    decide (Unicode.upper r.type = recordType)

theorem sameHost_iff {recordType hostname : String} {r : Record} :
    sameHost recordType hostname r = true ↔
      Unicode.lower (rstripChar '.' r.name) = Unicode.lower (rstripChar '.' hostname) ∧
        Unicode.upper r.type = recordType := by
  simp [sameHost]

omit [Unicode] in
theorem rstripChar_rstripChar (c : Char) (s : String) :
    rstripChar c (rstripChar c s) = rstripChar c s := by
  simp [rstripChar, List.rdropWhile_idempotent]

def cloudflarePlan (a : Args) : Except ProviderResult (Plan a) := do
  Check.require (supportsRecordType a.recordType) (unsupportedResult .cloudflare a.recordType)
  Check.require (strip (a.either "apiToken" "token") ≠ "" && strip (a.credential "zoneId") ≠ "")
    (failure Provider.cloudflare.id a.recordType "credential_error")
  let name := rstripChar '.' a.hostname
  let draft : Draft := { name, type := a.recordType, value := a.value, ttl := some a.ttl }
  return {
    query := { zone := a.credential "zoneId", name, type := a.recordType, pageSize := some 100 }
    same := sameHost a.recordType a.hostname
    create := { draft with
      other := if a.recordType ∈ proxiable then [("proxied", .bool false)] else [] }
    update := fun r => { draft with other := resent r }
    create_value := rfl
    update_value := fun _ => rfl
    create_found := by simp [draft]
    update_found := by simp [draft]
    same_create := by simp [sameHost_iff, Record.written, draft, name, rstripChar_rstripChar]
    same_update := by simp [sameHost_iff, Record.written, draft, name, rstripChar_rstripChar] }

def planOf (a : Args) : Provider → Except ProviderResult (Plan a)
  | .alidns => aliDnsPlan a
  | .dnspod => dnsPodPlan a
  | .cloudflare => cloudflarePlan a

/-- What a call answers, what it wrote and the zone after it. -/
structure Call where
  result : ProviderResult
  writes : List Write
  zone : Zone

omit [Unicode] in
def perform (s : Service) (provider recordType : String) (fate : Fate) (z : Zone) (write : Write)
    (recordId : String) : Call :=
  match fate with
  | .answered => ⟨success provider recordType true recordId, [write], s.serve z write⟩
  | .refused code => ⟨failure provider recordType code, [write], z⟩
  | .lost code => ⟨failure provider recordType code, [write], s.serve z write⟩

def Plan.run {a : Args} (plan : Plan a) (provider : String) (s : Service) (f : Fates) (z : Zone) :
    Call :=
  match f.list with
  | .refused code | .lost code => ⟨failure provider a.recordType code, [], z⟩
  | .answered =>
    match (s.page plan.query z).find? plan.same with
    | none =>
      perform s provider a.recordType f.write z (.create plan.create) (s.newId z.records)
    | some found =>
      if found.value = a.value then ⟨success provider a.recordType false found.id, [], z⟩
      else
        perform s provider a.recordType f.write z (.update found.id (plan.update found)) found.id

def syncRecord (p : Provider) (s : Service) (f : Fates) (a : Args) (z : Zone) : Call :=
  match planOf a p with
  | .error result => ⟨result, [], z⟩
  | .ok plan => plan.run p.id s f z

-- ---------------------------------------------------------------------------
-- What a call is for
-- ---------------------------------------------------------------------------

def Provider.names (a : Args) (name : String) : Provider → Prop
  | .cloudflare =>
    Unicode.lower (rstripChar '.' name) = Unicode.lower (rstripChar '.' a.hostname)
  | p => ∃ zone, zoneRr p a = .ok (zone, name)

def Exact (p : Provider) (a : Args) (r : Record) : Prop :=
  Unicode.upper r.type = Unicode.upper a.recordType ∧ p.names a r.name

/-- At most one write, to a record with the name and the type or where there is
none, and nothing more to do after a success. -/
structure Faithful (p : Provider) (s : Service) (a : Args) (z : Zone) : Prop where
  one_write : ∀ f, (syncRecord p s f a z).writes.length ≤ 1
  creates : ∀ f d, .create d ∈ (syncRecord p s f a z).writes → ∀ r ∈ z.records, ¬Exact p a r
  updates : ∀ f recordId d, .update recordId d ∈ (syncRecord p s f a z).writes →
    ∃ r ∈ z.records, r.id = recordId ∧ Exact p a r
  keeps : ∀ f, ∀ r ∈ z.records, ¬Exact p a r → r ∈ (syncRecord p s f a z).zone.records
  settles : ∀ f f', (syncRecord p s f a z).result.ok = true →
    (syncRecord p s f' a (syncRecord p s f a z).zone).writes = [] ∧
      (syncRecord p s f' a (syncRecord p s f a z).zone).result.changed = false

/-- The first page lists a record with the name and the type, or the zone has none
and the page will list the one that is created. -/
def FirstPageDecides (p : Provider) (s : Service) {a : Args} (plan : Plan a) (z : Zone) : Prop :=
  Unicode.upper a.recordType = a.recordType ∧
    ((∃ r ∈ s.page plan.query z, Exact p a r) ∨
      (∀ r ∈ z.records, ¬Exact p a r) ∧
        s.created plan.create z ∈ s.page plan.query (s.serve z (.create plan.create)))

theorem planOf_same {p : Provider} {a : Args} {plan : Plan a} (h : planOf a p = .ok plan)
    {r : Record} :
    plan.same r = true ↔ Unicode.upper r.type = a.recordType ∧ p.names a r.name := by
  cases p with
  | alidns | dnspod =>
    simp only [planOf, aliDnsPlan, dnsPodPlan, Check.bind_eq_ok] at h
    obtain ⟨_, -, _, -, ⟨zone, rr⟩, hzone, h⟩ := h
    cases h
    simp only [sameRecord_iff, Provider.names, hzone, Except.ok.injEq, Prod.mk.injEq]
    simp [@eq_comm _ rr]
  | cloudflare =>
    simp only [planOf, cloudflarePlan, Check.bind_eq_ok] at h
    obtain ⟨_, -, _, -, h⟩ := h
    cases h
    simp [sameHost_iff, Provider.names, and_comm]

theorem zoneRr_error {p : Provider} {a : Args} {result : ProviderResult}
    (h : zoneRr p a = .error result) : result.ok = false := by
  simp only [zoneRr] at h
  split at h
  · cases h
    rfl
  · split at h
    · cases h
    · split at h
      · cases h
      · cases h
        rfl

theorem planOf_error {p : Provider} {a : Args} {result : ProviderResult}
    (h : planOf a p = .error result) : result.ok = false := by
  cases p with
  | alidns | dnspod =>
    simp only [planOf, aliDnsPlan, dnsPodPlan, required, Check.bind_eq_error,
      Check.require_eq_error] at h
    obtain ⟨-, rfl⟩ | ⟨_, -, ⟨-, rfl⟩ | ⟨_, -, h | ⟨_, -, h⟩⟩⟩ := h
    · rfl
    · rfl
    · exact zoneRr_error h
    · cases h
  | cloudflare =>
    simp only [planOf, cloudflarePlan, Check.bind_eq_error, Check.require_eq_error] at h
    obtain ⟨-, rfl⟩ | ⟨_, -, ⟨-, rfl⟩ | ⟨_, -, h⟩⟩ := h
    · rfl
    · rfl
    · cases h

-- ---------------------------------------------------------------------------
-- One call
-- ---------------------------------------------------------------------------

section
variable (p : Provider) (s : Service) {f : Fates} {a : Args} (plan : Plan a) {z : Zone}

omit [Unicode] in
theorem perform_cases (provider recordType : String) (fate : Fate) (z : Zone) (write : Write)
    (recordId : String) :
    (perform s provider recordType fate z write recordId).writes = [write] ∧
      ((perform s provider recordType fate z write recordId).zone = z ∧
          (perform s provider recordType fate z write recordId).result.ok = false ∨
        (perform s provider recordType fate z write recordId).zone = s.serve z write) := by
  cases fate <;> simp [perform, failure]

/-- What a call can come to: a failed look-up, a record that is created, one that
is up to date, or one that is updated. -/
inductive Outcome (z : Zone) (c : Call) : Prop
  | failed (writes : c.writes = []) (zone : c.zone = z) (ok : c.result.ok = false)
  | current (found : Record) (listed : (s.page plan.query z).find? plan.same = some found)
      (value : found.value = a.value) (writes : c.writes = []) (zone : c.zone = z)
  | created (listed : (s.page plan.query z).find? plan.same = none)
      (writes : c.writes = [.create plan.create])
      (zone : c.zone = z ∧ c.result.ok = false ∨ c.zone = s.serve z (.create plan.create))
  | updated (found : Record) (listed : (s.page plan.query z).find? plan.same = some found)
      (writes : c.writes = [.update found.id (plan.update found)])
      (zone : c.zone = z ∧ c.result.ok = false ∨
        c.zone = s.serve z (.update found.id (plan.update found)))

theorem run_cases (provider : String) (f : Fates) (z : Zone) :
    Outcome s plan z (plan.run provider s f z) := by
  unfold Plan.run
  split
  · exact .failed rfl rfl rfl
  · exact .failed rfl rfl rfl
  · split
    · rename_i hnone
      obtain ⟨hwrites, hzone⟩ := perform_cases s provider a.recordType f.write z
        (.create plan.create) (s.newId z.records)
      exact .created hnone hwrites hzone
    · rename_i found hfound
      split
      · exact .current found hfound ‹_› rfl rfl
      · obtain ⟨hwrites, hzone⟩ := perform_cases s provider a.recordType f.write z
          (.update found.id (plan.update found)) found.id
        exact .updated found hfound hwrites hzone

theorem run_settled (provider : String) (f : Fates) {found : Record}
    (hlisted : (s.page plan.query z).find? plan.same = some found) (hvalue : found.value = a.value) :
    (plan.run provider s f z).writes = [] ∧ (plan.run provider s f z).result.changed = false := by
  unfold Plan.run
  split
  · exact ⟨rfl, rfl⟩
  · exact ⟨rfl, rfl⟩
  · simp [hlisted, hvalue, success]

theorem settled_create (hcapital : Unicode.upper a.recordType = a.recordType)
    (hnone : (s.page plan.query z).find? plan.same = none)
    (hlisted : s.created plan.create z ∈ s.page plan.query (s.serve z (.create plan.create))) :
    (s.page plan.query (s.serve z (.create plan.create))).find? plan.same =
      some (s.created plan.create z) := by
  have hsame : plan.same (s.created plan.create z) = true := (plan.same_create _).mpr hcapital
  cases hfind : (s.page plan.query (s.serve z (.create plan.create))).find? plan.same with
  | none => exact absurd hsame (List.find?_eq_none.mp hfind _ hlisted)
  | some r =>
    rcases s.mem_page_create (List.mem_of_find?_eq_some hfind) with rfl | hold
    · rfl
    · exact absurd (List.find?_some hfind) (List.find?_eq_none.mp hnone r hold)

theorem settled_update (hcapital : Unicode.upper a.recordType = a.recordType) {found : Record}
    (hfound : (s.page plan.query z).find? plan.same = some found) :
    (s.page plan.query (s.serve z (.update found.id (plan.update found)))).find? plan.same =
      some (found.written (plan.update found)) := by
  obtain ⟨hname, htype, hline⟩ := plan.update_found found
  have hmem : found ∈ s.page plan.query z := List.mem_of_find?_eq_some hfound
  have hmatch := s.isMatch_written found hname htype fun line hl => hline line hl found.line
  rw [s.page_update hmem hmatch, List.find?_map]
  -- the update is recognised where the record was, and the others are as before
  have hcongr : ∀ r ∈ s.page plan.query z,
      (plan.same ∘ Record.updated found.id (plan.update found)) r = plan.same r := by
    intro r hr
    rw [Function.comp_apply, Record.updated]
    split
    · rename_i hid
      rw [z.eq_of_id (s.mem_of_mem_page hr).1 (s.mem_of_mem_page hmem).1 hid,
        (plan.same_update found found).mpr hcapital, List.find?_some hfound]
    · rfl
  rw [List.find?_congr hcongr, hfound]
  simp [Record.updated]

-- ---------------------------------------------------------------------------
-- Two calls
-- ---------------------------------------------------------------------------

variable {plan}

theorem exact_of_same (hplan : planOf a p = .ok plan)
    (hupper : ∀ t, Unicode.upper (Unicode.upper t) = Unicode.upper t) {r : Record}
    (h : plan.same r = true) : Exact p a r ∧ Unicode.upper a.recordType = a.recordType := by
  obtain ⟨htype, hname⟩ := (planOf_same hplan).mp h
  have hcapital : Unicode.upper a.recordType = a.recordType := by rw [← htype, hupper]
  exact ⟨⟨htype.trans hcapital.symm, hname⟩, hcapital⟩

theorem same_of_exact (hplan : planOf a p = .ok plan)
    (hcapital : Unicode.upper a.recordType = a.recordType) {r : Record} (h : Exact p a r) :
    plan.same r = true :=
  (planOf_same hplan).mpr ⟨h.1.trans hcapital, h.2⟩

theorem find?_of_decides (hplan : planOf a p = .ok plan)
    (hupper : ∀ t, Unicode.upper (Unicode.upper t) = Unicode.upper t) :
    FirstPageDecides p s plan z ↔ ((s.page plan.query z).find? plan.same = none →
      Unicode.upper a.recordType = a.recordType ∧ (∀ r ∈ z.records, ¬Exact p a r) ∧
        s.created plan.create z ∈ s.page plan.query (s.serve z (.create plan.create))) := by
  constructor
  · rintro ⟨hcapital, ⟨r, hr, hexact⟩ | h⟩ hnone
    · exact absurd (same_of_exact p hplan hcapital hexact) (List.find?_eq_none.mp hnone r hr)
    · exact ⟨hcapital, h⟩
  · intro h
    cases hfind : (s.page plan.query z).find? plan.same with
    | none =>
      obtain ⟨hcapital, h⟩ := h hfind
      exact ⟨hcapital, .inr h⟩
    | some r =>
      obtain ⟨hexact, hcapital⟩ := exact_of_same p hplan hupper (List.find?_some hfind)
      exact ⟨hcapital, .inl ⟨r, List.mem_of_find?_eq_some hfind, hexact⟩⟩

theorem faithful_of_decides (hplan : planOf a p = .ok plan)
    (hupper : ∀ t, Unicode.upper (Unicode.upper t) = Unicode.upper t)
    (h : FirstPageDecides p s plan z) : Faithful p s a z := by
  have hnone := (find?_of_decides p s hplan hupper).mp h
  have hrun : ∀ f z, syncRecord p s f a z = plan.run p.id s f z := by
    intro f z
    simp [syncRecord, hplan]
  have hfound : ∀ {found}, (s.page plan.query z).find? plan.same = some found →
      found ∈ z.records ∧ Exact p a found := fun hlisted =>
    ⟨(s.mem_of_mem_page (List.mem_of_find?_eq_some hlisted)).1,
      (exact_of_same p hplan hupper (List.find?_some hlisted)).1⟩
  constructor
  · intro f
    rw [hrun]
    cases run_cases s plan p.id f z <;> simp_all
  · intro f d hd
    rw [hrun] at hd
    cases run_cases s plan p.id f z with
    | created hlisted => exact (hnone hlisted).2.1
    | failed hwrites => simp [hwrites] at hd
    | current found hlisted hvalue hwrites => simp [hwrites] at hd
    | updated found hlisted hwrites => simp [hwrites] at hd
  · intro f recordId d hd
    rw [hrun] at hd
    cases run_cases s plan p.id f z with
    | created hlisted hwrites => simp [hwrites] at hd
    | failed hwrites => simp [hwrites] at hd
    | current found hlisted hvalue hwrites => simp [hwrites] at hd
    | updated found hlisted hwrites =>
      obtain ⟨rfl, -⟩ : recordId = found.id ∧ d = plan.update found := by simpa [hwrites] using hd
      exact ⟨found, (hfound hlisted).1, rfl, (hfound hlisted).2⟩
  · intro f r hr hother
    rw [hrun]
    cases run_cases s plan p.id f z with
    | failed hwrites hzone => rwa [hzone]
    | current found hlisted hvalue hwrites hzone => rwa [hzone]
    | created hlisted hwrites hzone =>
      rcases hzone with ⟨hzone, -⟩ | hzone
      · rwa [hzone]
      · rw [hzone]
        exact s.mem_serve_create hr
    | updated found hlisted hwrites hzone =>
      rcases hzone with ⟨hzone, -⟩ | hzone
      · rwa [hzone]
      · have hne : r.id ≠ found.id := by
          intro hid
          rw [z.eq_of_id hr (hfound hlisted).1 hid] at hother
          exact hother (hfound hlisted).2
        rw [hzone]
        exact List.mem_map.mpr ⟨r, hr, by simp [Record.updated, hne]⟩
  · intro f f' hok
    rw [hrun] at hok ⊢
    rw [hrun]
    cases run_cases s plan p.id f z with
    | failed _ _ hfailed => simp [hfailed] at hok
    | current found hlisted hvalue _ hzone =>
      rw [hzone]
      exact run_settled s plan p.id f' hlisted hvalue
    | created hlisted _ hzone =>
      obtain ⟨hcapital, -, hcreated⟩ := hnone hlisted
      rcases hzone with ⟨-, hfailed⟩ | hzone
      · simp [hfailed] at hok
      · rw [hzone]
        exact run_settled s plan p.id f' (settled_create s plan hcapital hlisted hcreated)
          plan.create_value
    | updated found hlisted _ hzone =>
      rcases hzone with ⟨-, hfailed⟩ | hzone
      · simp [hfailed] at hok
      · rw [hzone]
        exact run_settled s plan p.id f' (settled_update s plan h.1 hlisted)
          (plan.update_value found)

theorem decides_of_faithful (hplan : planOf a p = .ok plan)
    (hupper : ∀ t, Unicode.upper (Unicode.upper t) = Unicode.upper t)
    (h : Faithful p s a z) : FirstPageDecides p s plan z := by
  rw [find?_of_decides p s hplan hupper]
  intro hlisted
  have hrun : ∀ z, syncRecord p s ⟨.answered, .answered⟩ a z = plan.run p.id s ⟨.answered, .answered⟩ z := by
    intro z
    simp [syncRecord, hplan]
  have hfirst : plan.run p.id s ⟨.answered, .answered⟩ z =
      ⟨success p.id a.recordType true (s.newId z.records), [.create plan.create],
        s.serve z (.create plan.create)⟩ := by
    simp [Plan.run, hlisted, perform]
  have hcreates := h.creates ⟨.answered, .answered⟩ plan.create (by simp [hrun, hfirst])
  obtain ⟨hwrites, -⟩ := h.settles ⟨.answered, .answered⟩ ⟨.answered, .answered⟩
    (by simp [hrun, hfirst, success])
  rw [hrun, hrun, hfirst] at hwrites
  -- the second look-up finds a record, and it can only be the new one
  have hfind : ∃ r, (s.page plan.query (s.serve z (.create plan.create))).find? plan.same = some r := by
    cases hsecond : (s.page plan.query (s.serve z (.create plan.create))).find? plan.same with
    | none => simp [Plan.run, hsecond, perform] at hwrites
    | some r => exact ⟨r, rfl⟩
  obtain ⟨r, hr⟩ := hfind
  have hmem := List.mem_of_find?_eq_some hr
  have hsame := List.find?_some hr
  rcases s.mem_page_create hmem with rfl | hold
  · exact ⟨(plan.same_create _).mp hsame, hcreates, hmem⟩
  · exact absurd hsame (List.find?_eq_none.mp hlisted r hold)

theorem sync_record_iff (p : Provider) (s : Service) (a : Args) (z : Zone)
    (hupper : ∀ t, Unicode.upper (Unicode.upper t) = Unicode.upper t) :
    Faithful p s a z ↔ ∀ plan, planOf a p = .ok plan → FirstPageDecides p s plan z := by
  constructor
  · exact fun h plan hplan => decides_of_faithful p s hplan hupper h
  · intro h
    cases hplan : planOf a p with
    | ok plan => exact faithful_of_decides p s hplan hupper (h plan hplan)
    | error result =>
      have hcall : ∀ f z, syncRecord p s f a z = ⟨result, [], z⟩ := by
        intro f z
        simp [syncRecord, hplan]
      have hfailed := planOf_error hplan
      constructor <;> simp +contextual [hcall, hfailed]

end

end

section
local instance : Unicode := .ascii

theorem contains_self (l : List Char) : contains l l = true := by
  cases l <;> simp [contains]

/-- A provider whose look-up takes the name as a key word. -/
def keywordService : Service where
  isMatch q r := contains q.name.toList r.name.toList && contains q.type.toList r.type.toList
  pageSize q := q.pageSize.getD 100
  place := List.length
  newId records := String.ofList (List.replicate ((records.map (·.id.length)).sum + 1) '1')
  admits hname htype _ := by simp [hname, htype, contains_self]
  pageSize_le h := by simp [h]
  place_le _ := le_rfl
  newId_fresh records := by
    intro h
    obtain ⟨r, hr, hid⟩ := List.mem_map.mp h
    have hlong : r.id.length ≤ (records.map (·.id.length)).sum :=
      List.le_sum_of_mem (List.mem_map.mpr ⟨r, hr, rfl⟩)
    rw [hid, String.length_ofList, List.length_replicate] at hlong
    omega

/-- A hundred hosts `w0` to `w99`, and `w` after them. -/
def crowdedZone : Zone where
  records := (List.range 100).map (fun n =>
      { id := toString n, name := "w" ++ toString n, type := "A", value := "192.0.2.1" }) ++
    [{ id := "100", name := "w", type := "A", value := "192.0.2.2" }]
  ids := by decide +kernel

def crowdedArgs : Args where
  hostname := "w.example.org"
  recordType := "A"
  value := "192.0.2.3"
  ttl := 600
  credentials := [("AccessKeyId", "id"), ("AccessKeySecret", "secret"), ("zone", "example.org")]

theorem sync_record_iff_crowded :
    Faithful .alidns keywordService crowdedArgs crowdedZone ↔
      ∀ plan, planOf crowdedArgs .alidns = .ok plan →
        FirstPageDecides .alidns keywordService plan crowdedZone :=
  sync_record_iff .alidns keywordService crowdedArgs crowdedZone asciiUpper_asciiUpper

/-- The record is on the second page, so the call creates it once more. -/
theorem sync_record_duplicates :
    ¬Faithful .alidns keywordService crowdedArgs crowdedZone := by
  intro h
  have hcreate : (syncRecord .alidns keywordService ⟨.answered, .answered⟩ crowdedArgs
      crowdedZone).writes =
      [.create { name := "w", type := "A", value := "192.0.2.3", ttl := some 600 }] := by
    decide +kernel
  have hnone := h.creates ⟨.answered, .answered⟩ _ (by rw [hcreate]; exact List.mem_singleton_self _)
  refine hnone { id := "100", name := "w", type := "A", value := "192.0.2.2" } ?_ ⟨rfl, ?_⟩
  · exact List.mem_append_right _ (List.mem_singleton_self _)
  · exact ⟨"example.org", by decide +kernel⟩

end

end LabProbe.Ddns.Providers
