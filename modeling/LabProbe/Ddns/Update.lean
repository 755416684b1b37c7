import LabProbe.Ddns.Store

/-!
# `run_update`

An update fixes under the lock what it will hand to the provider, calls the
provider for one type after the other without the lock, and takes the lock
again to write the results into the record as it is by then.
-/

namespace LabProbe.Ddns

open Py Py.Json
open Rows (updateFirst)

def retryDelays : List Nat := [30, 120, 600, 1800]

structure Run where
  recordId : String
  provider : Provider
  hostname : String
  ttl : Nat
  credentials : List (String × String)
  /-- What is handed to the provider, in order. -/
  work : List (RecordType × String)
  called : Nat := 0
  results : List (RecordType × Result)

/-- What `run_update` returns. -/
structure Outcome where
  ok : Bool
  status : FlowStatus
  results : List (RecordType × Result)

-- ---------------------------------------------------------------------------
-- The first lock
-- ---------------------------------------------------------------------------

def Record.noCall (r : Record) (success : Bool) (status errorCode errorMessage : String) : Result where
  success := success
  provider := r.provider.id
  status := status
  errorCode := errorCode
  errorMessage := errorMessage

/-- A value is held back by an error of the credentials or a retry delay. -/
def Record.handOver (r : Record) (now : Nat) (force : Bool) (t : RecordType) (value : String) :
    Except Result String :=
  let tracker := r.stability.get t
  if tracker.authError && !force then
    .error (r.noCall false "credential_error" "credential_error" "credentials require correction")
  else if now < tracker.nextRetryAt && !force then
    .error (r.noCall false "retry_backoff" "retry_backoff" "retry is deferred")
  else .ok value

def Record.planAddress (r : Record) (now : Nat) (force : Bool) (f : Family) :
    Except Result String :=
  if r.awaits f then
    if !addressIsFresh r now then
      .error (r.noCall false "stale_address" "stale_address" "检测地址已过期，请先刷新检测地址")
    else if (r.stability.get f.type).stableCount < 2 then
      .error (r.noCall false "waiting_for_stability" "" "")
    else r.handOver now force f.type (r.detected.get f)
  else .error (r.noCall true "noop" "" "")

def Record.planDirect (r : Record) (now : Nat) (force : Bool) (t : RecordType) :
    Except Result String :=
  let value := r.value t
  if !r.provider.supports t then
    .error (r.noCall false "error" "unsupported_record_type"
      "provider does not support this record type")
  else if value = "" then
    .error (r.noCall false "error" "value_required" "record value is required")
  else if value = r.published t then .error (r.noCall true "noop" "" "")
  else r.handOver now force t value

/-- The value of a type to hand to the provider, or its result without a call. -/
def Record.plan (r : Record) (now : Nat) (force : Bool) : RecordType → Except Result String
  | .a => r.planAddress now force .ipv4
  | .aaaa => r.planAddress now force .ipv6
  | t => r.planDirect now force t

def Record.updateTypes (r : Record) : List RecordType :=
  Ddns.recordTypes.filter (· ∈ r.recordTypes)

def Record.work (r : Record) (now : Nat) (force : Bool) : List (RecordType × String) :=
  r.updateTypes.filterMap fun t => (r.plan now force t).toOption.map (t, ·)

def Record.noCalls (r : Record) (now : Nat) (force : Bool) : List (RecordType × Result) :=
  r.updateTypes.filterMap fun t => match r.plan now force t with
    | .error result => some (t, result)
    | .ok _ => none

def Record.idle (r : Record) (results : List (RecordType × Result)) : Record :=
  let has := fun statuses : List String => results.any fun e => statuses.contains e.2.status
  let r := { r with lastRecordResults := results }
  if has ["waiting_for_stability", "retry_backoff", "credential_error", "stale_address"] then
    let stale := results.find? fun e => e.2.status == "stale_address"
    { r with status := if r.status = .error then .error else .detected
             lastError := (stale.map fun e => e.2.errorMessage).or r.lastError }
  else if has ["error"] then { r with status := .error }
  else if r.hasPublished then { r with status := .published, lastError := none }
  else r

/-- The first part of `run_update`: an update is started, or it is finished. -/
def Store.beginUpdate (s : Store) (now : Nat) (recordId : String) (force : Bool) :
    Except RequestError (Store × (Outcome ⊕ Run)) :=
  let write := fun f : Record → Record =>
    { s with records := updateFirst (·.id == recordId) f s.records }.save
  match s.records.find? (·.id == recordId) with
  | none => .error (.keyError recordId)
  | some r =>
    if !r.enabled then
      .ok (write fun r => { r with status := .disabled }, .inl ⟨true, .disabled, []⟩)
    else
      let work := r.work now force
      let results := r.noCalls now force
      if work.isEmpty then
        let ok := !results.any fun e => ["error", "stale_address"].contains e.2.status
        .ok (write fun r => r.idle results, .inl ⟨ok, (r.idle results).status, results⟩)
      else
        .ok (write fun r => { r with status := .updating },
          .inr { recordId := recordId
                 provider := r.provider
                 hostname := r.hostname
                 ttl := r.ttl
                 credentials := (Dict.get? s.secrets recordId).getD []
                 work := work
                 results := results })

-- ---------------------------------------------------------------------------
-- The calls
-- ---------------------------------------------------------------------------

/-- The result when `sync_record` raises. -/
def Provider.failed (p : Provider) : ProviderResult where
  ok := false
  provider := p.id
  error := "provider request failed"
  errorCode := "provider_error"
  errorMessage := "provider request failed"

def Run.next? (run : Run) : Option (RecordType × String) := run.work[run.called]?

/-- The provider answers the next call, or raises. -/
def Run.call (run : Run) (response : Option ProviderResult) : Run :=
  match run.next? with
  | none => run
  | some (t, _) =>
    let response := response.getD run.provider.failed
    let message := if response.errorMessage = "" then response.error else response.errorMessage
    let result : Result :=
      { success := response.ok
        status := if response.ok then "published" else "error"
        provider := if response.provider = "" then run.provider.id else response.provider
        recordId := response.recordId
        changed := response.changed
        errorCode := response.errorCode
        errorMessage := redactError message run.credentials }
    { run with called := run.called + 1, results := run.results ++ [(t, result)] }

-- ---------------------------------------------------------------------------
-- The second lock
-- ---------------------------------------------------------------------------

def Record.publish (now : Nat) (r : Record) (t : RecordType) : Record :=
  let value := r.value t
  { r with publishedIp := match t with
             | .a => r.publishedIp.set .ipv4 (optionalText value)
             | .aaaa => r.publishedIp.set .ipv6 (optionalText value)
             | _ => r.publishedIp
           publishedValues := r.publishedValues.set t value
           lastUpdatedAt := some now
           stability := r.stability.set t {} }

def authErrorCodes : List String :=
  ["401", "403", "http_401", "http_403", "InvalidAccessKey", "InvalidAccessKeyId", "AuthFailure",
    "credential_error", "authentication_failed"]

def Result.isPending (result : Result) : Bool :=
  !result.success &&
    ["waiting_for_stability", "retry_backoff", "stale_address"].contains result.status

def Result.isError (result : Result) : Bool := !result.success && !result.isPending

/-- The record notes that its address is too old to publish. -/
def Record.postpone (r : Record) (result : Result) : Record :=
  { r with lastError :=
      if result.status = "stale_address" then some (strip result.errorMessage) else r.lastError }

/-- The record notes an error of a type, and when to try again. -/
def Record.fail (now : Nat) (credentials : List (String × String)) (r : Record) (t : RecordType)
    (result : Result) : Record :=
  let tracker := r.stability.get t
  let code := strip result.errorCode
  let message := redactError result.errorMessage credentials
  let authError := authErrorCodes.contains code
  let attempt := min retryDelays.length (tracker.retryAttempt + 1)
  { r with stability := r.stability.set t
             { tracker with
               retryAttempt := attempt
               authError := authError
               nextRetryAt := if authError then 0 else now + retryDelays.getD (attempt - 1) 0 }
           lastError := some (if message ≠ "" then message
             else if code ≠ "" then code else "provider update failed") }

def Record.settle (now : Nat) (credentials : List (String × String)) (r : Record)
    (e : RecordType × Result) : Record :=
  if e.2.success then r.publish now e.1
  else if e.2.isPending then r.postpone e.2
  else r.fail now credentials e.1 e.2

/-- All results of an update, written into the record. -/
def Record.finish (now : Nat) (run : Run) (r : Record) : Record :=
  let settled := run.results.foldl (Record.settle now run.credentials) r
  let anyError := run.results.any fun e => e.2.isError
  let pending := run.results.any fun e => e.2.isPending
  { settled with
    lastRecordResults := run.results
    status := if anyError then .error else if pending then .detected else .published
    lastError := if anyError || pending then settled.lastError else none }

/-- The last part of `run_update`; where the record is gone, it raises. -/
def Store.finishUpdate (s : Store) (now : Nat) (run : Run) : Option (Store × Outcome) :=
  (s.records.find? (·.id == run.recordId)).map fun r =>
    ({ s with records := updateFirst (·.id == run.recordId) (Record.finish now run) s.records }.save,
      { ok := !run.results.any fun e => e.2.isError || e.2.isPending && e.2.status == "stale_address"
        status := (r.finish now run).status
        results := run.results })

-- ---------------------------------------------------------------------------
-- The records after each part
-- ---------------------------------------------------------------------------

theorem idle_frame (r : Record) (results : List (RecordType × Result)) :
    ∃ status lastError, r.idle results =
      { r with status := status, lastError := lastError, lastRecordResults := results } := by
  unfold Record.idle
  dsimp only
  split
  · exact ⟨_, _, rfl⟩
  · split
    · exact ⟨_, _, rfl⟩
    · split
      · exact ⟨_, _, rfl⟩
      · exact ⟨_, _, rfl⟩

theorem mem_work : (t, value) ∈ Record.work r now force ↔
    t ∈ r.updateTypes ∧ r.plan now force t = .ok value := by
  unfold Record.work
  rw [List.mem_filterMap]
  constructor
  · rintro ⟨t', ht, h⟩
    cases hplan : r.plan now force t' with
    | error result => simp [hplan, Except.toOption] at h
    | ok value' =>
      simp only [hplan, Except.toOption, Option.map_some, Option.some.injEq, Prod.mk.injEq] at h
      obtain ⟨rfl, rfl⟩ := h
      exact ⟨ht, hplan⟩
  · rintro ⟨ht, hplan⟩
    exact ⟨t, ht, by simp [hplan, Except.toOption]⟩

theorem plan_of_mem_noCalls (h : (t, result) ∈ Record.noCalls r now force) :
    r.plan now force t = .error result := by
  obtain ⟨t', -, h⟩ := List.mem_filterMap.mp h
  cases hplan : r.plan now force t' with
  | error result' =>
    simp only [hplan, Option.some.injEq, Prod.mk.injEq] at h
    obtain ⟨rfl, rfl⟩ := h
    exact hplan
  | ok value => simp [hplan] at h

theorem work_unique (h : (t, value) ∈ Record.work r now force)
    (h' : (t, value') ∈ Record.work r now force) : value = value' := by
  have hplan := (mem_work.mp h).2.symm.trans (mem_work.mp h').2
  exact Except.ok.inj hplan

/-- The first part changes the status of its record and the results shown. -/
theorem mem_beginUpdate {s s' : Store} {out : Outcome ⊕ Run} {r' : Record}
    (h : s.beginUpdate now recordId force = .ok (s', out)) (hr : r' ∈ s'.records) :
    r' ∈ s.records ∨ ∃ r, s.records.find? (·.id == recordId) = some r ∧
      ∃ status lastError results, r' =
        { r with status := status, lastError := lastError, lastRecordResults := results } := by
  unfold Store.beginUpdate at h
  cases hf : s.records.find? (·.id == recordId) with
  | none => simp [hf] at h
  | some r =>
    rw [hf] at h
    dsimp only at h
    have hwrite : ∀ f : Record → Record,
        r' ∈ { s with records := updateFirst (·.id == recordId) f s.records }.save.records →
        r' ∈ s.records ∨ r' = f r := by
      intro f hm
      rcases Rows.mem_updateFirst hm with hm | ⟨a, ha, rfl⟩
      · exact .inl hm
      · exact .inr (by rw [Option.some.inj (ha.symm.trans hf)])
    split at h
    · cases h
      exact (hwrite _ hr).imp_right fun heq => ⟨r, rfl, _, _, _, heq⟩
    · split at h
      · cases h
        refine (hwrite _ hr).imp_right fun heq => ⟨r, rfl, ?_⟩
        obtain ⟨status, lastError, hidle⟩ := idle_frame r (r.noCalls now force)
        exact ⟨status, lastError, _, heq.trans hidle⟩
      · cases h
        exact (hwrite _ hr).imp_right fun heq => ⟨r, rfl, _, _, _, heq⟩

theorem beginUpdate_writes {s s' : Store} {out : Outcome ⊕ Run}
    (h : s.beginUpdate now recordId force = .ok (s', out)) : s.Writes s' := by
  unfold Store.beginUpdate at h
  cases hf : s.records.find? (·.id == recordId) with
  | none => simp [hf] at h
  | some r =>
    rw [hf] at h
    dsimp only at h
    split at h
    · cases h
      exact save_writes _ _
    · split at h <;> cases h <;> exact save_writes _ _

theorem beginUpdate_run {s s' : Store} {run : Run}
    (h : s.beginUpdate now recordId force = .ok (s', .inr run)) :
    ∃ r ∈ s.records, run.work = r.work now force ∧ run.results = r.noCalls now force := by
  unfold Store.beginUpdate at h
  cases hf : s.records.find? (·.id == recordId) with
  | none => simp [hf] at h
  | some r =>
    rw [hf] at h
    dsimp only at h
    split at h
    · simp at h
    · split at h
      · simp at h
      · cases h
        exact ⟨r, List.mem_of_find?_eq_some hf, rfl, rfl⟩

theorem Run.call_work (run : Run) (response : Option ProviderResult) :
    (run.call response).work = run.work ∧ (run.call response).recordId = run.recordId ∧
      (run.call response).provider = run.provider ∧ (run.call response).hostname = run.hostname := by
  unfold Run.call
  split <;> exact ⟨rfl, rfl, rfl, rfl⟩

theorem settle_frame (now : Nat) (credentials : List (String × String)) (r : Record)
    (e : RecordType × Result) : ∃ publishedIp publishedValues lastUpdatedAt stability lastError,
      r.settle now credentials e =
        { r with publishedIp := publishedIp
                 publishedValues := publishedValues
                 lastUpdatedAt := lastUpdatedAt
                 stability := stability
                 lastError := lastError } := by
  unfold Record.settle
  split
  · exact ⟨_, _, _, _, _, rfl⟩
  · split <;> exact ⟨_, _, _, _, _, rfl⟩

theorem settleAll_frame (now : Nat) (credentials : List (String × String))
    (results : List (RecordType × Result)) (r : Record) :
    ∃ publishedIp publishedValues lastUpdatedAt stability lastError,
      results.foldl (Record.settle now credentials) r =
        { r with publishedIp := publishedIp
                 publishedValues := publishedValues
                 lastUpdatedAt := lastUpdatedAt
                 stability := stability
                 lastError := lastError } := by
  induction results generalizing r with
  | nil => exact ⟨_, _, _, _, _, rfl⟩
  | cons e results ih =>
    obtain ⟨_, _, _, _, _, hsettle⟩ := settle_frame now credentials r e
    obtain ⟨ip, values, updated, stability, error, hall⟩ := ih (r.settle now credentials e)
    refine ⟨ip, values, updated, stability, error, ?_⟩
    rw [List.foldl_cons, hall, hsettle]

theorem finish_frame (now : Nat) (run : Run) (r : Record) :
    ∃ publishedIp publishedValues lastUpdatedAt stability lastError status,
      r.finish now run =
        { r with publishedIp := publishedIp
                 publishedValues := publishedValues
                 lastUpdatedAt := lastUpdatedAt
                 stability := stability
                 lastError := lastError
                 lastRecordResults := run.results
                 status := status } := by
  obtain ⟨_, _, _, _, _, hall⟩ := settleAll_frame now run.credentials run.results r
  unfold Record.finish
  rw [hall]
  exact ⟨_, _, _, _, _, _, rfl⟩

theorem published_publish (now : Nat) (r : Record) (t t' : RecordType) :
    (r.publish now t).published t' = if t = t' then r.value t' else r.published t' := by
  cases t <;> cases t' <;> simp [Record.publish, Record.published, Record.value,
    DirectValues.set, DirectValues.get, optionalText_getD]

theorem published_settle (now : Nat) (credentials : List (String × String)) (r : Record)
    (e : RecordType × Result) (t : RecordType) : (r.settle now credentials e).published t =
      if e.1 = t ∧ e.2.success then r.value t else r.published t := by
  by_cases hsuccess : e.2.success = true
  · rw [Record.settle, if_pos hsuccess, published_publish]
    simp only [hsuccess, and_true]
  · have hkept : ∀ r' : Record, r'.publishedIp = r.publishedIp →
        r'.publishedValues = r.publishedValues → r'.published t = r.published t := by
      intro r' hip hvalues
      cases t <;> simp only [Record.published, hip, hvalues]
    rw [if_neg fun h => hsuccess h.2]
    unfold Record.settle
    rw [if_neg hsuccess]
    split <;> exact hkept _ rfl rfl

theorem value_settle (now : Nat) (credentials : List (String × String)) (r : Record)
    (e : RecordType × Result) (t : RecordType) : (r.settle now credentials e).value t = r.value t := by
  obtain ⟨_, _, _, _, _, h⟩ := settle_frame now credentials r e
  rw [h]
  cases t <;> rfl

theorem published_finish (now : Nat) (run : Run) (r : Record) (t : RecordType) :
    (r.finish now run).published t =
      if ∃ e ∈ run.results, e.1 = t ∧ e.2.success then r.value t else r.published t := by
  suffices h : ∀ (results : List (RecordType × Result)) (r : Record),
      (results.foldl (Record.settle now run.credentials) r).published t =
        if ∃ e ∈ results, e.1 = t ∧ e.2.success then r.value t else r.published t by
    rw [← h run.results r]
    cases t <;> rfl
  intro results
  induction results with
  | nil => simp
  | cons e results ih =>
    intro r
    rw [List.foldl_cons, ih, value_settle, published_settle]
    simp only [List.exists_mem_cons_iff]
    by_cases h : ∃ e' ∈ results, e'.1 = t ∧ e'.2.success
    · rw [if_pos h, if_pos (.inr h)]
    · simp [h]

theorem mem_finishUpdate {s s' : Store} {out : Outcome} {run : Run} {r' : Record}
    (h : s.finishUpdate now run = some (s', out)) (hr : r' ∈ s'.records) :
    r' ∈ s.records ∨ ∃ r, s.records.find? (·.id == run.recordId) = some r ∧ r' = r.finish now run := by
  obtain ⟨r, -, hs⟩ := Option.map_eq_some_iff.mp h
  cases hs
  exact Rows.mem_updateFirst hr

theorem finishUpdate_writes {s s' : Store} {out : Outcome} {run : Run}
    (h : s.finishUpdate now run = some (s', out)) : s.Writes s' := by
  obtain ⟨r, -, hs⟩ := Option.map_eq_some_iff.mp h
  cases hs
  exact save_writes _ _

end LabProbe.Ddns
