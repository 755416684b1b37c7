import LabProbe.Lib.Run
import LabProbe.Ddns.Update

/-!
# The store with its updates in flight

Reports, requests, the two locked parts of the updates and the calls between
them interleave in any order; the providers answer anything. A restart loads
what was written last and ends the updates in flight.

Kept on the side are the values the providers acknowledged, and the samples
taken since the store was loaded.
-/

namespace LabProbe.Ddns

open Py Py.Json

/-- A value that `sync_record` reported as published. -/
structure Ack where
  provider : Provider
  hostname : String
  type : RecordType
  value : String
  deriving DecidableEq

structure Flight where
  run : Run
  acked : List (RecordType × String) := []

structure System where
  store : Store := {}
  flights : List Flight := []
  acks : List Ack := []
  samples : List Address := []

inductive Event where
  | acceptAddress (now : Nat) (value : Json)
  | saveRecord (newId recordId : String) (value : Entries)
  | deleteRecord (recordId : String)
  | saveCredentials (recordId : String) (credentials : Entries)
  | beginUpdate (now : Nat) (recordId : String) (force : Bool)
  | call (flight : Nat) (response : Option ProviderResult)
  | finishUpdate (now flight : Nat)
  | reload (newIds : Nat → String)

def Event.isReload : Event → Bool
  | .reload _ => true
  | _ => false

/-- The value of the next call, where the provider acknowledges it. -/
def Flight.answer (flight : Flight) (response : Option ProviderResult) :
    List (RecordType × String) :=
  if response.any ProviderResult.ok then flight.run.next?.toList else []

def Flight.call (flight : Flight) (response : Option ProviderResult) : Flight where
  run := flight.run.call response
  acked := flight.acked ++ flight.answer response

section
variable [Unicode]

def System.step (s : System) : Event → System
  | .acceptAddress now value =>
    { s with store := s.store.acceptAddress now value
             samples := s.samples ++ (s.store.sample now value).toList }
  | .saveRecord newId recordId value =>
    match s.store.saveRecord newId recordId value with
    | .ok (store, _) => { s with store := store }
    | .error _ => s
  | .deleteRecord recordId => { s with store := s.store.deleteRecord recordId }
  | .saveCredentials recordId credentials =>
    { s with store := s.store.saveCredentials recordId credentials }
  | .beginUpdate now recordId force =>
    match s.store.beginUpdate now recordId force with
    | .ok (store, .inr run) => { s with store := store, flights := s.flights ++ [⟨run, []⟩] }
    | .ok (store, .inl _) => { s with store := store }
    | .error _ => s
  | .call i response =>
    match s.flights[i]? with
    | some flight =>
      { s with flights := s.flights.set i (flight.call response)
               acks := s.acks ++ (flight.answer response).map fun e =>
                 ⟨flight.run.provider, flight.run.hostname, e.1, e.2⟩ }
    | none => s
  | .finishUpdate now i =>
    match s.flights[i]? with
    | some flight =>
      if flight.run.next?.isSome then s
      else { s with store := ((s.store.finishUpdate now flight.run).map Prod.fst).getD s.store
                    flights := s.flights.eraseIdx i }
    | none => s
  | .reload newIds =>
    { s with store := load newIds s.store.disk s.store.secrets, flights := [], samples := [] }

attribute [local grind =] System.step Event.isReload

/-- The system after a start with any document. -/
def System.loaded (newIds : Nat → String) (raw : Option Json)
    (secrets : List (String × List (String × String))) : System where
  store := load newIds raw secrets

-- ---------------------------------------------------------------------------
-- What a step does
-- ---------------------------------------------------------------------------

def System.sample (s : System) : Event → Option Address
  | .acceptAddress now value => s.store.sample now value
  | _ => none

inductive System.Yields (s : System) : Event → Record → Prop
  | kept (hr : r ∈ s.store.records) (hsample : s.sample e = none) : Yields s e r
  | sampled (hr : r ∈ s.store.records) (hsample : s.store.sample now value = some address) :
    Yields s (.acceptAddress now value)
      (r.acceptAddress (s.store.sampleChanged address) address).1
  | created (hread : readRequest newId value = .ok r) :
    Yields s (.saveRecord newId "" value) (r.created s.store.address)
  | edited (hread : readRequest newId value = .ok r) (hid : recordId ≠ "")
    (hold : s.store.records.find? (·.id == recordId) = some old) :
    Yields s (.saveRecord newId recordId value) (r.edited recordId value old)
  | marked (hr : r ∈ s.store.records) (status : FlowStatus) (lastError : Option String)
    (results : List (RecordType × Result)) : Yields s (.beginUpdate now recordId force)
      { r with status := status, lastError := lastError, lastRecordResults := results }
  | finished (hflight : s.flights[i]? = some flight) (hdone : flight.run.next? = none)
    (hr : s.store.records.find? (·.id == flight.run.recordId) = some r) :
    Yields s (.finishUpdate now i) (r.finish now flight.run)
  | loaded (hr : r ∈ (load newIds s.store.disk s.store.secrets).records) : Yields s (.reload newIds) r

/-- Where an update comes from that is in flight after a step. -/
inductive System.Flies (s : System) : Event → Flight → Prop
  | kept (hflight : flight ∈ s.flights) (he : e.isReload = false) : Flies s e flight
  | called (hflight : s.flights[i]? = some flight) (response : Option ProviderResult) :
    Flies s (.call i response) (flight.call response)
  | begun {begun : Store} (hbegin : s.store.beginUpdate now recordId force = .ok (begun, .inr run)) :
    Flies s (.beginUpdate now recordId force) ⟨run, []⟩

theorem yields_of_mem {s : System} {e : Event} (hr : r ∈ (s.step e).store.records) :
    s.Yields e r := by
  cases e with
  | acceptAddress now value =>
    rcases mem_acceptAddress hr with ⟨hsample, hr⟩ | ⟨address, hsample, r, hold, rfl⟩
    · exact .kept hr hsample
    · exact .sampled hold hsample
  | saveRecord newId recordId value =>
    simp only [System.step] at hr
    cases hsave : s.store.saveRecord newId recordId value with
    | error e => exact .kept (by simpa only [hsave] using hr) rfl
    | ok result =>
      rw [hsave] at hr
      rcases mem_saveRecord hsave hr with hr | ⟨r, hread, ⟨rfl, rfl⟩ | ⟨hid, old, hold, rfl⟩⟩
      · exact .kept hr rfl
      · exact .created hread
      · exact .edited hread hid hold
  | deleteRecord recordId => exact .kept (mem_deleteRecord hr) rfl
  | saveCredentials recordId credentials =>
    exact .kept (by simpa only [System.step, saveCredentials_records] using hr) rfl
  | beginUpdate now recordId force =>
    simp only [System.step] at hr
    cases hbegin : s.store.beginUpdate now recordId force with
    | error e => exact .kept (by simpa only [hbegin] using hr) rfl
    | ok result =>
      obtain ⟨store, out⟩ := result
      have hmem : r ∈ store.records := by
        cases out <;> simpa only [hbegin] using hr
      rcases mem_beginUpdate hbegin hmem with hr | ⟨r, hfind, status, lastError, results, rfl⟩
      · exact .kept hr rfl
      · exact .marked (List.mem_of_find?_eq_some hfind) status lastError results
  | call i response =>
    refine .kept ?_ rfl
    simp only [System.step] at hr
    cases hflight : s.flights[i]? <;> simpa only [hflight] using hr
  | finishUpdate now i =>
    simp only [System.step] at hr
    cases hflight : s.flights[i]? with
    | none => exact .kept (by simpa only [hflight] using hr) rfl
    | some flight =>
      rw [hflight] at hr
      dsimp only at hr
      split at hr
      · exact .kept hr rfl
      · rename_i hdone
        cases hfinish : s.store.finishUpdate now flight.run with
        | none =>
          rw [hfinish] at hr
          exact .kept hr rfl
        | some result =>
          rw [hfinish] at hr
          rcases mem_finishUpdate hfinish hr with hr | ⟨r, hfind, rfl⟩
          · exact .kept hr rfl
          · exact .finished hflight (by simpa using hdone) hfind
  | reload newIds => exact .loaded hr

theorem flies_of_mem {s : System} {e : Event} (hflight : flight ∈ (s.step e).flights) :
    s.Flies e flight := by
  cases e with
  | acceptAddress | deleteRecord | saveCredentials => exact .kept hflight rfl
  | saveRecord newId recordId value =>
    refine .kept ?_ rfl
    simp only [System.step] at hflight
    cases hsave : s.store.saveRecord newId recordId value <;> simpa only [hsave] using hflight
  | beginUpdate now recordId force =>
    simp only [System.step] at hflight
    cases hbegin : s.store.beginUpdate now recordId force with
    | error e => exact .kept (by simpa only [hbegin] using hflight) rfl
    | ok result =>
      obtain ⟨store, out⟩ := result
      cases out with
      | inl outcome => exact .kept (by simpa only [hbegin] using hflight) rfl
      | inr run =>
        rw [hbegin] at hflight
        rcases List.mem_append.mp hflight with hflight | hflight
        · exact .kept hflight rfl
        · obtain rfl := List.mem_singleton.mp hflight
          exact .begun hbegin
  | call i response =>
    simp only [System.step] at hflight
    cases hi : s.flights[i]? with
    | none => exact .kept (by simpa only [hi] using hflight) rfl
    | some old =>
      rw [hi] at hflight
      rcases List.mem_or_eq_of_mem_set hflight with hflight | rfl
      · exact .kept hflight rfl
      · exact .called hi response
  | finishUpdate now i =>
    refine .kept ?_ rfl
    simp only [System.step] at hflight
    cases hi : s.flights[i]? with
    | none => simpa only [hi] using hflight
    | some old =>
      rw [hi] at hflight
      dsimp only at hflight
      split at hflight
      · exact hflight
      · exact List.mem_of_mem_eraseIdx hflight
  | reload newIds => exact absurd hflight (List.not_mem_nil)

theorem step_writes {s : System} {e : Event} (he : e.isReload = false) (hsample : s.sample e = none) :
    s.store.Writes (s.step e).store := by
  cases e with
  | acceptAddress now value =>
    have hnone : s.store.sample now value = none := hsample
    simp only [System.step, Store.acceptAddress, hnone]
    exact .refl _
  | saveRecord newId recordId value =>
    simp only [System.step]
    cases hsave : s.store.saveRecord newId recordId value with
    | error e => exact .refl _
    | ok result => exact saveRecord_writes hsave
  | deleteRecord recordId => exact deleteRecord_writes _ _
  | saveCredentials recordId credentials => exact saveCredentials_writes _ _ _
  | beginUpdate now recordId force =>
    simp only [System.step]
    cases hbegin : s.store.beginUpdate now recordId force with
    | error e => exact .refl _
    | ok result =>
      obtain ⟨store, out⟩ := result
      cases out <;> exact beginUpdate_writes hbegin
  | call i response =>
    simp only [System.step]
    split <;> exact .refl _
  | finishUpdate now i =>
    simp only [System.step]
    split
    · split
      · exact .refl _
      · rename_i flight _ _
        cases hfinish : s.store.finishUpdate now flight.run with
        | none => exact .refl _
        | some result => exact finishUpdate_writes hfinish
    · exact .refl _
  | reload newIds => simp [Event.isReload] at he

theorem step_observes {s : System} {e : Event} (hsample : s.sample e = some address) :
    (s.step e).store = s.store.observe address := by
  cases e with
  | acceptAddress now value =>
    have hsome : s.store.sample now value = some address := hsample
    simp only [System.step, Store.acceptAddress, hsome]
  | _ => simp [System.sample] at hsample

theorem step_address {s : System} {e : Event} (he : e.isReload = false) :
    (s.step e).store.address = (s.sample e).or s.store.address := by
  cases hsample : s.sample e with
  | none => exact (step_writes he hsample).address
  | some address => rw [step_observes hsample, observe_address, Option.some_or]

theorem step_disk {s : System} {e : Event} :
    (s.step e).store.disk = s.store.disk ∨ (s.step e).store.disk =
      some (rootJson (s.step e).store.address (s.step e).store.records) := by
  cases he : e.isReload with
  | true => cases e <;> simp [Event.isReload] at he; exact .inl rfl
  | false =>
    cases hsample : s.sample e with
    | none => exact (step_writes he hsample).disk.imp_left And.left
    | some address =>
      rw [step_observes hsample]
      exact observe_disk _ _

theorem step_samples {s : System} {e : Event} (he : e.isReload = false) :
    (s.step e).samples = s.samples ++ (s.sample e).toList := by
  cases e with
  | acceptAddress => rfl
  | reload => simp [Event.isReload] at he
  | _ =>
    simp only [System.step, System.sample, Option.toList_none, List.append_nil]
    repeat' split
    all_goals rfl

theorem step_acks {s : System} {e : Event} {a : Ack} (h : a ∈ s.acks) :
    a ∈ (s.step e).acks := by
  cases e with
  | call i response =>
    simp only [System.step]
    split
    · exact List.mem_append_left _ h
    · exact h
  | _ =>
    simp only [System.step]
    repeat' split
    all_goals exact h

end

end LabProbe.Ddns
