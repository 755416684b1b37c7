import LabProbe.Ddns.Identity
import LabProbe.Ddns.Stability

/-!
# The credentials an error was recorded under

An error of the credentials holds a type of a record back until an update
with force succeeds or another address is detected. Saving other credentials
does not release it. Kept on the side is under which credentials the errors
were recorded.
-/

namespace LabProbe.Ddns

open Py Py.Json Runs

abbrev Credentials := List (String × String)

/-- The record that `run_update` takes for an identifier. -/
def Store.found (s : Store) (recordId : String) : Option Record :=
  s.records.find? (·.id == recordId)

def Store.credentials (s : Store) (recordId : String) : Credentials :=
  (Dict.get? s.secrets recordId).getD []

/-- The types an update without force refuses for an error of the credentials. -/
def Store.refused (s : Store) (now : Nat) (recordId : String) : List RecordType :=
  let results := match s.beginUpdate now recordId false with
    | .ok (_, .inl outcome) => outcome.results
    | .ok (_, .inr run) => run.results
    | .error _ => []
  (results.filter fun e => e.2.status == "credential_error").map Prod.fst

def Result.isAuthError (result : Result) : Bool :=
  result.isError && authErrorCodes.contains (strip result.errorCode)

/-- An error of the credentials holds the type back: for an address, as long
as samples of it are counted. -/
def Record.latched (r : Record) (t : RecordType) : Bool :=
  let tracker := r.stability.get t
  tracker.authError && (t ∈ [.cname, .txt] || tracker.candidate ≠ "" || tracker.stableCount ≠ 0)

/-- A system, with the credentials under which each type of each record last
had an error of the credentials, and none since. -/
structure Watched where
  system : System := {}
  under : List ((String × RecordType) × Credentials) := []

/-- A result replaces what was known of its type, unless it is pending. -/
def Run.note (run : Run) (under : List ((String × RecordType) × Credentials))
    (e : RecordType × Result) : List ((String × RecordType) × Credentials) :=
  if e.2.isPending then under
  else if e.2.isAuthError then Dict.set under (run.recordId, e.1) run.credentials
  else Dict.erase under (run.recordId, e.1)

section
variable [Unicode]

/-- What an event tells of the errors of the credentials. A record that is
new has none. -/
def Watched.notes (w : Watched) : Event → List ((String × RecordType) × Credentials)
  | .saveRecord newId recordId value =>
    match readRequest newId value with
    | .ok r =>
      if recordId = "" ∧ r.id ∉ w.system.store.ids then w.under.filter fun e => e.1.1 != r.id
      else w.under
    | .error _ => w.under
  | .deleteRecord recordId => w.under.filter fun e => e.1.1 != recordId
  | .finishUpdate _ i =>
    match w.system.flights[i]? with
    | some flight =>
      if flight.run.next?.isNone ∧ flight.run.recordId ∈ w.system.store.ids then
        flight.run.results.foldl flight.run.note w.under
      else w.under
    | none => w.under
  | _ => w.under

def Watched.step (w : Watched) (e : Event) : Watched := ⟨w.system.step e, w.notes e⟩

omit [Unicode] in
/-- No update without force is refused for an error that was recorded under
other credentials than those the record has. -/
def Watched.Honest (w : Watched) : Prop :=
  ∀ now recordId, ∀ t ∈ w.system.store.refused now recordId,
    ∀ credentials ∈ Dict.get? w.under (recordId, t),
      credentials = w.system.store.credentials recordId

/-- Credentials change while no error recorded under others holds the record
back, and no update ends with such an error after they changed. -/
def Watched.Fits (w : Watched) : Event → Prop
  | .saveCredentials recordId credentials =>
    (w.system.store.saveCredentials recordId credentials).credentials recordId ≠
      w.system.store.credentials recordId →
    ∀ r ∈ w.system.store.found recordId, ∀ t ∈ recordTypes,
      r.latched t = true → Dict.get? w.under (recordId, t) = none
  | .finishUpdate _ i => ∀ flight ∈ w.system.flights[i]?,
    (∃ e ∈ flight.run.results, e.2.isAuthError = true) →
      flight.run.credentials = w.system.store.credentials flight.run.recordId
  | _ => True

instance (w : Watched) (e : Event) : Decidable (w.Fits e) := by
  unfold Watched.Fits
  exact match e with
    | .acceptAddress .. | .saveRecord .. | .deleteRecord .. | .saveCredentials .. |
      .beginUpdate .. | .call .. | .finishUpdate .. | .reload .. => inferInstance

-- ---------------------------------------------------------------------------
-- What holds a type back
-- ---------------------------------------------------------------------------

omit [Unicode] in
theorem handOver_refused {r : Record} (h : r.handOver now false t value = .error result)
    (hstatus : result.status = "credential_error") : (r.stability.get t).authError = true := by
  unfold Record.handOver at h
  dsimp only at h
  split_ifs at h with hauth hretry
  · simpa using hauth
  · cases h
    simp [Record.noCall] at hstatus

omit [Unicode] in
theorem latched_of_refused {r : Record} (h : (t, result) ∈ r.noCalls now false)
    (hstatus : result.status = "credential_error") : r.latched t = true := by
  have hplan := plan_of_mem_noCalls h
  have hfamily : ∀ f, r.planAddress now false f = .error result → r.latched f.type = true := by
    intro f hf
    unfold Record.planAddress at hf
    split_ifs at hf with hawaits hfresh hcount
    · cases hf
      simp [Record.noCall] at hstatus
    · cases hf
      simp [Record.noCall] at hstatus
    · have hauth := handOver_refused hf hstatus
      have hne : (r.stability.get f.type).stableCount ≠ 0 := by omega
      simp [Record.latched, hauth, hne]
    · cases hf
      simp [Record.noCall] at hstatus
  have hdirect : ∀ t, t ∈ [RecordType.cname, .txt] → r.planDirect now false t = .error result →
      r.latched t = true := by
    intro t ht hd
    unfold Record.planDirect at hd
    dsimp only at hd
    split_ifs at hd
    · cases hd
      simp [Record.noCall] at hstatus
    · cases hd
      simp [Record.noCall] at hstatus
    · cases hd
      simp [Record.noCall] at hstatus
    · simp [Record.latched, handOver_refused hd hstatus, List.mem_pair.mp ht]
  cases t with
  | a => exact hfamily .ipv4 hplan
  | aaaa => exact hfamily .ipv6 hplan
  | cname => exact hdirect .cname (by simp) hplan
  | txt => exact hdirect .txt (by simp) hplan

omit [Unicode] in
theorem latched_of_mem_refused {s : Store} (h : t ∈ s.refused now recordId) :
    ∃ r, s.found recordId = some r ∧ r.latched t = true := by
  obtain ⟨e, he, rfl⟩ := List.mem_map.mp h
  obtain ⟨hmem, hstatus⟩ := List.mem_filter.mp he
  unfold Store.beginUpdate at hmem
  cases hf : s.records.find? (·.id == recordId) with
  | none => simp [hf] at hmem
  | some r =>
    rw [hf] at hmem
    dsimp only at hmem
    have hnoCall : (e.1, e.2) ∈ r.noCalls now false := by
      split_ifs at hmem
      · simp at hmem
      · exact hmem
      · exact hmem
    exact ⟨r, hf, latched_of_refused hnoCall (beq_iff_eq.mp hstatus)⟩

omit [Unicode] in
theorem latched_acceptAddress {r : Record} {sampleChanged : Bool} {address : Address}
    (h : (r.acceptAddress sampleChanged address).1.latched t = true) : r.latched t = true := by
  cases sampleChanged with
  | false => exact h
  | true =>
    have hfamily : ∀ f : Family, (r.acceptAddress true address).1.latched f.type = true →
        r.latched f.type = true := by
      intro f hf
      have htracker : (r.acceptAddress true address).1.stability.get f.type =
          (r.tracker f).observe (f.type ∈ r.recordTypes) ((r.sample address).awaits f)
            (address.detected.get f) ((r.sample address).published f.type) :=
        trackers_get (r.sample address) f
      have hdetected : (r.sample address).awaits f = true → address.detected.get f ≠ "" :=
        fun hawaits => (awaits_iff.mp hawaits).2.1
      unfold Record.latched at hf ⊢
      rw [htracker] at hf
      unfold Tracker.observe at hf
      split_ifs at hf with htracked hawaits hsame hpublished
      all_goals cases f <;> simp_all [Family.type, Record.tracker]
    cases t with
    | a => exact hfamily .ipv4 h
    | aaaa => exact hfamily .ipv6 h
    | cname | txt => exact h

/-- The types of a record that are held back for an error with notes on the
credentials. -/
def Held (credentials : Credentials) (recordId : String)
    (under : List ((String × RecordType) × Credentials)) (r : Record) : Prop :=
  ∀ t, r.latched t = true → ∀ c ∈ Dict.get? under (recordId, t), c = credentials

omit [Unicode] in
theorem Held.settle {run : Run} {r : Record} {e : RecordType × Result} (now : Nat)
    (h : Held credentials run.recordId under r)
    (he : e.2.isAuthError = true → run.credentials = credentials) :
    Held credentials run.recordId (run.note under e) (r.settle now run.credentials e) := by
  intro t ht c hc
  unfold Run.note at hc
  unfold Record.settle at ht
  by_cases hpending : e.2.isPending = true
  · have hsuccess : e.2.success = false := by
      simpa using (Bool.and_eq_true_iff.mp hpending).1
    rw [if_pos hpending] at hc
    rw [if_neg (by simp [hsuccess]), if_pos hpending] at ht
    exact h t ht c hc
  · rw [if_neg hpending] at hc
    have hother : e.1 ≠ t → r.latched t = true → c = credentials := by
      intro hne hr
      have hkey : ¬ (run.recordId, e.1) = (run.recordId, t) := by simpa using hne
      split_ifs at hc
      · rw [Dict.get?_set, if_neg hkey] at hc
        exact h t hr c hc
      · rw [Dict.get?_erase, if_neg hkey] at hc
        exact h t hr c hc
    by_cases hsame : e.1 = t
    · subst hsame
      by_cases hauth : e.2.isAuthError = true
      · rw [if_pos hauth, Dict.get?_set, if_pos rfl] at hc
        exact (Option.some.inj hc).symm.trans (he hauth)
      · rw [if_neg hauth, Dict.get?_erase, if_pos rfl] at hc
        cases hc
    · refine hother hsame ?_
      split_ifs at ht with hsuccess
      · simpa [Record.latched, Record.publish, hsame] using ht
      · simpa [Record.latched, Record.fail, hsame] using ht

omit [Unicode] in
theorem Held.finish {run : Run} {r : Record} (now : Nat)
    (h : Held credentials run.recordId under r)
    (he : (∃ e ∈ run.results, e.2.isAuthError = true) → run.credentials = credentials) :
    Held credentials run.recordId (run.results.foldl run.note under) (r.finish now run) := by
  suffices hall : ∀ (results : List (RecordType × Result)) (under) (r : Record),
      Held credentials run.recordId under r →
      ((∃ e ∈ results, e.2.isAuthError = true) → run.credentials = credentials) →
      Held credentials run.recordId (results.foldl run.note under)
        (results.foldl (Record.settle now run.credentials) r) from
    hall run.results under r h he
  intro results
  induction results with
  | nil => exact fun _ _ h _ => h
  | cons e results ih =>
    intro under r h he
    refine ih _ _ (h.settle now fun hauth => he ⟨e, List.mem_cons_self, hauth⟩) ?_
    rintro ⟨e', hmem, hauth⟩
    exact he ⟨e', List.mem_cons_of_mem _ hmem, hauth⟩

omit [Unicode] in
theorem get?_note {run : Run} (h : recordId ≠ run.recordId) (results : List (RecordType × Result))
    (under : List ((String × RecordType) × Credentials)) (t : RecordType) :
    Dict.get? (results.foldl run.note under) (recordId, t) = Dict.get? under (recordId, t) := by
  induction results generalizing under with
  | nil => rfl
  | cons e results ih =>
    have hkey : ¬ (run.recordId, e.1) = (recordId, t) := fun heq => h (Prod.mk.inj heq).1.symm
    rw [List.foldl_cons, ih, Run.note]
    split_ifs
    · rfl
    · rw [Dict.get?_set, if_neg hkey]
    · rw [Dict.get?_erase, if_neg hkey]

-- ---------------------------------------------------------------------------
-- The records by their identifiers
-- ---------------------------------------------------------------------------

omit [Unicode] in
theorem found_isSome {s : Store} : (s.found recordId).isSome ↔ recordId ∈ s.ids := by
  simp [Store.found, Store.ids, List.find?_isSome]

omit [Unicode] in
theorem found_updateFirst {f : Record → Record}
    (hf : ∀ r, r.id = recordId → (f r).id = recordId) (records : List Record) (other : String) :
    (Rows.updateFirst (·.id == recordId) f records).find? (·.id == other) =
      (records.find? (·.id == other)).map fun r => if other = recordId then f r else r := by
  by_cases h : other = recordId
  · subst h
    simp only [if_true]
    exact Rows.find?_updateFirst (fun r hr => by simpa using hf r (by simpa using hr)) records
  · simp only [h, if_false, Option.map_id']
    refine Rows.find?_updateFirst_other (fun r hr => ?_) records
    have hid : r.id = recordId := by simpa using hr
    simp [hid, hf r hid, Ne.symm h]

omit [Unicode] in
theorem found_deleteRecord (s : Store) (deletedId : String) (other : String) :
    (s.deleteRecord deletedId).found other = if other = deletedId then none else s.found other := by
  have hrecords : (s.deleteRecord deletedId).records =
      s.records.filter (·.id != deletedId) := by
    unfold Store.deleteRecord
    dsimp only
    split
    · rename_i hlen
      exact (List.filter_eq_self.mpr (List.length_filter_eq_length_iff.mp hlen)).symm
    · rfl
  rw [Store.found, hrecords, List.find?_filter]
  split_ifs with h
  · subst h
    rw [List.find?_eq_none]
    simp
  · refine congrArg (s.records.find? ·) (funext fun r => ?_)
    by_cases hr : r.id = other
    · simp [hr, h]
    · simp [hr]

omit [Unicode] in
theorem beginUpdate_rewrites {s s' : Store} {out : Outcome ⊕ Run}
    (h : s.beginUpdate now recordId force = .ok (s', out)) : s'.secrets = s.secrets ∧
      ∃ f : Record → Record, (∀ r, (f r).id = r.id ∧ (f r).stability = r.stability) ∧
        s' = { s with records := Rows.updateFirst (·.id == recordId) f s.records }.save := by
  unfold Store.beginUpdate at h
  cases hf : s.records.find? (·.id == recordId) with
  | none => simp [hf] at h
  | some r =>
    rw [hf] at h
    dsimp only at h
    split_ifs at h
    · cases h
      exact ⟨rfl, fun r => { r with status := .disabled }, fun _ => ⟨rfl, rfl⟩, rfl⟩
    · cases h
      refine ⟨rfl, _, fun r' => ?_, rfl⟩
      obtain ⟨status, lastError, hidle⟩ := idle_frame r' (r.noCalls now force)
      rw [hidle]
      exact ⟨rfl, rfl⟩
    · cases h
      exact ⟨rfl, fun r => { r with status := .updating }, fun _ => ⟨rfl, rfl⟩, rfl⟩

-- ---------------------------------------------------------------------------
-- The document and a restart
-- ---------------------------------------------------------------------------

def Record.marks (r : Record) : String × Bool × Bool :=
  (r.id, r.stability.cname.authError, r.stability.txt.authError)

theorem readBack_marks {r : Record} (h : IsNewId r.id) (newId : String) :
    (normalRecord newId r.toJson).map (fun r => r.restarted.marks) = some r.marks := by
  have hid := readBack_id h newId
  rw [normalRecord_toJson, Option.map_some, Option.some.injEq] at hid ⊢
  exact congrArg (fun id => (id, r.stability.cname.authError, r.stability.txt.authError)) hid

omit [Unicode] in
theorem latched_restarted {r : Record} (h : r.restarted.latched t = true) :
    t ∈ [RecordType.cname, .txt] ∧ (r.stability.get t).authError = true := by
  simp only [Record.latched, Record.restarted, PerType.get_of] at h
  simpa [and_comm] using h

omit [Unicode] in
theorem latched_of_marks {r r' : Record} (h : r'.marks = r.marks)
    (ht : t ∈ [RecordType.cname, .txt]) (hauth : (r'.stability.get t).authError = true) :
    r.latched t = true := by
  obtain ⟨-, hmarks⟩ := Prod.mk.inj h
  obtain ⟨hcname, htxt⟩ := Prod.mk.inj hmarks
  have hsame : (r.stability.get t).authError = true := by
    rcases List.mem_pair.mp ht with rfl | rfl
    · exact hcname ▸ hauth
    · exact htxt ▸ hauth
  simp [Record.latched, hsame, List.mem_pair.mp ht]

omit [Unicode] in
theorem found_of_marks {records records' : List Record}
    (h : records'.map Record.marks = records.map Record.marks)
    (hr : records'.find? (·.id == recordId) = some r') :
    ∃ r, records.find? (·.id == recordId) = some r ∧ r'.marks = r.marks := by
  induction records' generalizing records with
  | nil => cases hr
  | cons a' records' ih =>
    cases records with
    | nil => cases h
    | cons a records =>
      obtain ⟨ha, hrest⟩ := List.cons.inj h
      have hid : a'.id = a.id := (Prod.mk.inj ha).1
      by_cases hp : a'.id = recordId
      · rw [List.find?_cons_of_pos (by simpa using hp), Option.some.injEq] at hr
        subst hr
        exact ⟨a, List.find?_cons_of_pos (by simpa [← hid] using hp), ha⟩
      · rw [List.find?_cons_of_neg (by simpa using hp)] at hr
        rw [List.find?_cons_of_neg (by simpa [← hid] using hp)]
        exact ih hrest hr

theorem step_marks {s : System} {e : Event} (he : e.isReload = false) :
    (s.step e).store.records.map Record.marks = s.store.records.map Record.marks ∨
      (s.step e).store.disk =
        some (rootJson (s.step e).store.address (s.step e).store.records) := by
  cases e with
  | acceptAddress now value =>
    left
    simp only [System.step, Store.acceptAddress]
    split
    · rw [observe_records, List.map_map]
      refine List.map_congr_left fun r _ => ?_
      cases s.store.sampleChanged _ <;> rfl
    · rfl
  | saveRecord newId recordId value =>
    simp only [System.step, Store.saveRecord]
    cases hread : readRequest newId value with
    | error e => exact .inl rfl
    | ok r =>
      dsimp only
      split_ifs with hid
      · exact .inr rfl
      · cases hfind : s.store.records.find? (·.id == recordId) with
        | none => exact .inl rfl
        | some old => exact .inr rfl
  | deleteRecord recordId =>
    simp only [System.step, Store.deleteRecord]
    split
    · exact .inl rfl
    · exact .inr rfl
  | saveCredentials recordId credentials =>
    left
    simp only [System.step, saveCredentials_records]
  | beginUpdate now recordId force =>
    simp only [System.step]
    cases hbegin : s.store.beginUpdate now recordId force with
    | error e => exact .inl rfl
    | ok result =>
      obtain ⟨store, out⟩ := result
      obtain ⟨-, f, -, rfl⟩ := beginUpdate_rewrites hbegin
      cases out <;> exact .inr rfl
  | call i response =>
    left
    simp only [System.step]
    split <;> rfl
  | finishUpdate now i =>
    simp only [System.step]
    split
    · split
      · exact .inl rfl
      · rename_i flight _ _
        cases hfinish : s.store.finishUpdate now flight.run with
        | none => exact .inl rfl
        | some result =>
          obtain ⟨r, -, hs⟩ := Option.map_eq_some_iff.mp hfinish
          cases hs
          exact .inr rfl
    · exact .inl rfl
  | reload newIds => cases he

-- ---------------------------------------------------------------------------
-- Every run
-- ---------------------------------------------------------------------------

omit [Unicode] in
/-- What holds a record back was recorded under the credentials it has, and
the document says the same. -/
structure Watched.Sound (w : Watched) : Prop where
  mirrored : Mirrored w.system
  marks : ∀ root ∈ w.system.store.disk, ∃ address records, root = rootJson address records ∧
    records.map Record.marks = w.system.store.records.map Record.marks
  held : ∀ recordId, ∀ r ∈ w.system.store.found recordId,
    Held (w.system.store.credentials recordId) recordId w.under r

omit [Unicode] in
theorem Watched.sound_empty : Watched.Sound {} where
  mirrored := mirrored_empty
  marks root h := by cases h
  held recordId r h := by cases h

omit [Unicode] in
theorem Watched.Sound.honest {w : Watched} (h : w.Sound) : w.Honest := by
  intro now recordId t ht
  obtain ⟨r, hr, hlatched⟩ := latched_of_mem_refused ht
  exact h.held recordId r hr t hlatched

theorem Watched.Sound.reload_marks {w : Watched} (h : w.Sound) (newIds : Nat → String) :
    (w.system.step (.reload newIds)).store.records.map Record.marks =
      w.system.store.records.map Record.marks := by
  cases hdisk : w.system.store.disk with
  | none =>
    rw [h.mirrored.empty hdisk]
    simp [System.step, load, hdisk, storedRecords, asDict, dict?, Json.get, list?]
  | some root =>
    obtain ⟨address, records, rfl, hmarks⟩ := h.marks root hdisk
    have hids : records.map Record.id = w.system.store.ids := by
      simpa [Record.marks, Store.ids, Function.comp_def] using congrArg (List.map Prod.fst) hmarks
    simp only [System.step, hdisk]
    rw [load_map, hmarks]
    intro r hr
    exact readBack_marks (h.mirrored.named r.id (hids ▸ List.mem_map_of_mem hr))

theorem Watched.Sound.held_reload {w : Watched} (h : w.Sound) (newIds : Nat → String)
    {recordId : String} {r' : Record}
    (hr' : (w.system.step (.reload newIds)).store.found recordId = some r') :
    Held (w.system.store.credentials recordId) recordId w.under r' := by
  intro t ht
  obtain ⟨item, -, hload⟩ := List.mem_filterMap.mp (List.mem_of_find?_eq_some hr')
  obtain ⟨r₀, -, rfl⟩ := Option.map_eq_some_iff.mp hload
  obtain ⟨hdirect, hauth⟩ := latched_restarted ht
  obtain ⟨r, hr, hmarks⟩ := found_of_marks (h.reload_marks newIds) hr'
  have hkept : (r₀.restarted.stability.get t).authError = true := by
    simpa [Record.restarted] using hauth
  exact h.held recordId r hr t (latched_of_marks hmarks hdirect hkept)

theorem Watched.Sound.held_saveRecord {w : Watched} (h : w.Sound) {recordId : String} {r' : Record}
    (hr' : (w.step (.saveRecord newId editedId value)).system.store.found recordId = some r') :
    Held (w.system.store.credentials recordId) recordId (w.notes (.saveRecord newId editedId value))
      r' := by
  simp only [Watched.step, System.step, Store.saveRecord] at hr'
  simp only [Watched.notes]
  cases hread : readRequest newId value with
  | error e =>
    rw [hread] at hr'
    exact h.held recordId r' hr'
  | ok r =>
    simp only [hread] at hr' ⊢
    by_cases hid : editedId = ""
    · simp only [if_pos hid, Store.found, save_records, List.find?_append] at hr'
      cases hfound : w.system.store.found recordId with
      | some old =>
        rw [Store.found] at hfound
        rw [hfound, Option.some_or, Option.some.injEq] at hr'
        subst hr'
        have hmem : recordId ∈ w.system.store.ids :=
          found_isSome.mp (by rw [Store.found, hfound]; rfl)
        intro t ht c hc
        refine h.held recordId old hfound t ht c ?_
        split_ifs at hc with hnew
        · have hkey := Dict.get?_filter_key (fun k : String × RecordType => k.1 != r.id) w.under
            (recordId, t)
          have hne : recordId ≠ r.id := fun heq => hnew.2 (heq ▸ hmem)
          rwa [hkey, if_pos (by simpa using hne)] at hc
        · exact hc
      | none =>
        have hnone : recordId ∉ w.system.store.ids := by
          rw [← found_isSome, hfound]
          simp
        have hsame : (r.created w.system.store.address).id = recordId := by
          rw [Store.found] at hfound
          rw [hfound, Option.none_or] at hr'
          have hlast := List.mem_singleton.mp (List.mem_of_find?_eq_some hr')
          simpa [← hlast] using List.find?_some hr'
        have hrid : r.id = recordId := hsame
        intro t _ c hc
        have hkey := Dict.get?_filter_key (fun k : String × RecordType => k.1 != r.id) w.under
          (recordId, t)
        rw [if_pos ⟨hid, hrid ▸ hnone⟩, hkey, if_neg (by simp [hrid])] at hc
        cases hc
    · simp only [if_neg hid, if_neg fun hboth : editedId = "" ∧ _ => hid hboth.1] at hr' ⊢
      cases hfind : w.system.store.records.find? (·.id == editedId) with
      | none =>
        rw [hfind] at hr'
        exact h.held recordId r' hr'
      | some old =>
        have hf : ∀ old : Record, old.id = editedId → (r.edited editedId value old).id = editedId :=
          fun _ _ => rfl
        simp only [hfind, Store.found, save_records, found_updateFirst hf] at hr'
        obtain ⟨r₀, hr₀, rfl⟩ := Option.map_eq_some_iff.mp hr'
        have hheld := h.held recordId r₀ hr₀
        split
        · exact hheld
        · exact hheld

theorem step_secrets {s : System} {e : Event} (he : ∀ id c, e ≠ .saveCredentials id c) :
    (s.step e).store.secrets = s.store.secrets := by
  cases e with
  | acceptAddress now value =>
    simp only [System.step, Store.acceptAddress, Store.observe]
    split
    · split <;> rfl
    · rfl
  | saveRecord newId recordId value =>
    simp only [System.step, Store.saveRecord]
    cases hread : readRequest newId value with
    | error e => rfl
    | ok r =>
      dsimp only
      split_ifs with hid
      · rfl
      · cases hfind : s.store.records.find? (·.id == recordId) <;> rfl
  | deleteRecord recordId =>
    simp only [System.step, Store.deleteRecord]
    split <;> rfl
  | saveCredentials recordId credentials => exact absurd rfl (he _ _)
  | beginUpdate now recordId force =>
    simp only [System.step]
    cases hbegin : s.store.beginUpdate now recordId force with
    | error e => rfl
    | ok result =>
      obtain ⟨store, out⟩ := result
      cases out <;> exact (beginUpdate_rewrites hbegin).1
  | call i response =>
    simp only [System.step]
    split <;> rfl
  | finishUpdate now i =>
    simp only [System.step]
    split
    · split
      · rfl
      · rename_i flight _ _
        cases hfinish : s.store.finishUpdate now flight.run with
        | none => rfl
        | some result =>
          obtain ⟨r, -, hs⟩ := Option.map_eq_some_iff.mp hfinish
          cases hs
          rfl
    · rfl
  | reload newIds => rfl

theorem Watched.Sound.held_saveCredentials {w : Watched} (h : w.Sound) {recordId savedId : String}
    {credentials : Entries} (hfits : w.Fits (.saveCredentials savedId credentials)) {r : Record}
    (hr : w.system.store.found recordId = some r) :
    Held ((w.system.store.saveCredentials savedId credentials).credentials recordId) recordId
      w.under r := by
  by_cases hsame : (w.system.store.saveCredentials savedId credentials).credentials recordId =
      w.system.store.credentials recordId
  · rw [hsame]
    exact h.held recordId r hr
  · have hsaved : savedId = recordId := by
      by_contra hne
      refine hsame ?_
      unfold Store.saveCredentials Store.credentials
      dsimp only
      split
      · rfl
      · rw [Dict.get?_set, if_neg hne]
    subst hsaved
    intro t ht c hc
    rw [hfits hsame r hr t (mem_recordTypes t) ht] at hc
    cases hc

theorem Watched.Sound.held_finishUpdate {w : Watched} (h : w.Sound) {recordId : String}
    {r' : Record} (hfits : w.Fits (.finishUpdate now i))
    (hr' : (w.system.step (.finishUpdate now i)).store.found recordId = some r') :
    Held (w.system.store.credentials recordId) recordId (w.notes (.finishUpdate now i)) r' := by
  simp only [System.step] at hr'
  simp only [Watched.notes]
  cases hflight : w.system.flights[i]? with
  | none =>
    rw [hflight] at hr'
    exact h.held recordId r' hr'
  | some flight =>
    simp only [hflight] at hr' ⊢
    cases hnext : flight.run.next? with
    | some next =>
      simp only [hnext, Option.isSome_some, if_true] at hr'
      simp only [Option.isNone_some, Bool.false_eq_true, false_and, if_false]
      exact h.held recordId r' hr'
    | none =>
      simp only [hnext, Option.isSome_none, Bool.false_eq_true, if_false, Store.finishUpdate] at hr'
      simp only [Option.isNone_none, true_and]
      cases hfind : w.system.store.found flight.run.recordId with
      | none =>
        have hnone : flight.run.recordId ∉ w.system.store.ids := by
          rw [← found_isSome, hfind]
          simp
        rw [Store.found] at hfind
        simp only [hfind, Option.map_none, Option.getD_none] at hr'
        rw [if_neg hnone]
        exact h.held recordId r' hr'
      | some old =>
        have hmem : flight.run.recordId ∈ w.system.store.ids :=
          found_isSome.mp (by rw [hfind]; rfl)
        have hid : ∀ r : Record, (r.finish now flight.run).id = r.id := by
          intro r
          obtain ⟨_, _, _, _, _, _, hframe⟩ := finish_frame now flight.run r
          rw [hframe]
        have hf : ∀ r : Record, r.id = flight.run.recordId →
            (r.finish now flight.run).id = flight.run.recordId :=
          fun r hr => (hid r).trans hr
        rw [Store.found] at hfind
        simp only [hfind, Option.map_some, Option.getD_some, Store.found, save_records,
          found_updateFirst hf] at hr'
        obtain ⟨r, hr, rfl⟩ := Option.map_eq_some_iff.mp hr'
        have hheld := h.held recordId r hr
        rw [if_pos hmem]
        split_ifs with hsame
        · subst hsame
          exact hheld.finish now (hfits flight hflight)
        · intro t ht c hc
          rw [get?_note hsame] at hc
          exact hheld t ht c hc

theorem Watched.Sound.held_step {w : Watched} {e : Event} (h : w.Sound) (hfits : w.Fits e)
    (recordId : String) (r' : Record) (hr' : (w.step e).system.store.found recordId = some r') :
    Held ((w.step e).system.store.credentials recordId) recordId (w.notes e) r' := by
  have hkeeps : (∀ id c, e ≠ .saveCredentials id c) →
      (w.step e).system.store.credentials recordId = w.system.store.credentials recordId := by
    intro he
    rw [Store.credentials, Watched.step, step_secrets he, Store.credentials]
  cases e with
  | acceptAddress now value =>
    rw [hkeeps (by simp)]
    simp only [Watched.step, System.step, Store.acceptAddress] at hr'
    cases hsample : w.system.store.sample now value with
    | none =>
      simp only [hsample] at hr'
      exact h.held recordId r' hr'
    | some address =>
      simp only [hsample, Store.found, observe_records, List.find?_map] at hr'
      obtain ⟨r, hr, rfl⟩ := Option.map_eq_some_iff.mp hr'
      exact fun t ht => h.held recordId r hr t (latched_acceptAddress ht)
  | saveRecord newId editedId value =>
    rw [hkeeps (by simp)]
    exact h.held_saveRecord hr'
  | deleteRecord deletedId =>
    rw [hkeeps (by simp)]
    have hfound : (w.system.store.deleteRecord deletedId).found recordId = some r' := hr'
    rw [found_deleteRecord] at hfound
    split_ifs at hfound with hdeleted
    intro t ht c hc
    have hkey := Dict.get?_filter_key (fun k : String × RecordType => k.1 != deletedId) w.under
      (recordId, t)
    refine h.held recordId r' hfound t ht c ?_
    simp only [Watched.notes] at hc
    rwa [hkey, if_pos (by simpa using hdeleted)] at hc
  | saveCredentials savedId credentials =>
    have hr : w.system.store.found recordId = some r' := by
      rw [← hr', Store.found, Store.found]
      simp only [Watched.step, System.step, saveCredentials_records]
    exact h.held_saveCredentials hfits hr
  | beginUpdate now begunId force =>
    rw [hkeeps (by simp)]
    simp only [Watched.step, System.step] at hr'
    cases hbegin : w.system.store.beginUpdate now begunId force with
    | error e =>
      rw [hbegin] at hr'
      exact h.held recordId r' hr'
    | ok result =>
      obtain ⟨store, out⟩ := result
      obtain ⟨-, f, hf, rfl⟩ := beginUpdate_rewrites hbegin
      have hid : ∀ r : Record, r.id = begunId → (f r).id = begunId := fun r hr => (hf r).1.trans hr
      have hfound : (Rows.updateFirst (·.id == begunId) f w.system.store.records).find?
          (·.id == recordId) = some r' := by
        rw [hbegin] at hr'
        cases out <;> exact hr'
      rw [found_updateFirst hid] at hfound
      obtain ⟨r, hr, rfl⟩ := Option.map_eq_some_iff.mp hfound
      have hheld := h.held recordId r hr
      split
      · intro t ht
        refine hheld t ?_
        rwa [Record.latched, (hf r).2] at ht
      · exact hheld
  | call i response =>
    rw [hkeeps (by simp)]
    refine h.held recordId r' ?_
    simp only [Watched.step, System.step] at hr'
    split at hr' <;> exact hr'
  | finishUpdate now i =>
    rw [hkeeps (by simp)]
    exact h.held_finishUpdate hfits hr'
  | reload newIds =>
    rw [hkeeps (by simp)]
    exact h.held_reload newIds hr'

theorem Watched.Sound.step {w : Watched} {e : Event} (h : w.Sound) (hnew : e.NewIds)
    (hfits : w.Fits e) : (w.step e).Sound := by
  refine ⟨h.mirrored.step hnew, fun root hroot => ?_, h.held_step hfits⟩
  cases he : e.isReload with
  | true =>
    cases e <;> simp only [Event.isReload, Bool.false_eq_true] at he
    obtain ⟨address, records, hrecords, hmarks⟩ := h.marks root hroot
    exact ⟨address, records, hrecords, hmarks.trans (h.reload_marks _).symm⟩
  | false =>
    have hsaved : (w.step e).system.store.disk = some (rootJson (w.step e).system.store.address
        (w.step e).system.store.records) → ∃ address records, root = rootJson address records ∧
          records.map Record.marks = (w.step e).system.store.records.map Record.marks := by
      intro hdisk
      rw [hdisk] at hroot
      cases hroot
      exact ⟨_, _, rfl, rfl⟩
    rcases step_marks (s := w.system) he with hmarks | hdisk
    · rcases @step_disk _ w.system e with hsame | hdisk
      · obtain ⟨address, records, hrecords, hold⟩ := h.marks root (hsame ▸ hroot)
        exact ⟨address, records, hrecords, hold.trans hmarks.symm⟩
      · exact hsaved hdisk
    · exact hsaved hdisk

/-- From an empty store, in the runs whose credentials change while no error
holds their record back and no update is in flight that has one, no update
without force is refused for an error recorded under other credentials. -/
theorem refused_under_current (es : List Event) (hnew : ∀ e ∈ es, e.NewIds)
    (hfits : Along Watched.step Watched.Fits {} es) :
    Along Watched.step (fun w e => (w.step e).Honest) {} es := by
  suffices h : ∀ w : Watched, w.Sound → Along Watched.step Watched.Fits w es →
      Along Watched.step (fun w e => (w.step e).Honest) w es from
    h {} Watched.sound_empty hfits
  clear hfits
  induction es with
  | nil => exact fun _ _ _ => trivial
  | cons e es ih =>
    intro w hw hfits
    obtain ⟨he, hes⟩ := List.forall_mem_cons.mp hnew
    have hstep := hw.step he hfits.1
    exact ⟨hstep.honest, ih hes _ hstep hfits.2⟩

end

section
local instance credentialsUnicode : Unicode := .ascii

def txtRequest : Entries :=
  [("id", .str "home"), ("provider", .str "cloudflare"), ("hostname", .str "home.example.com"),
    ("recordTypes", .str "TXT"), ("recordValues", .dict [("TXT", .str "v=1")])]

def zoneCredentials (apiToken : String) : Event :=
  .saveCredentials "home" [("apiToken", .str apiToken), ("zoneId", .str "zone-1")]

/-- A record with credentials that the provider does not accept. -/
def refusedUpdate : List Event :=
  [.saveRecord "3f2a" "" txtRequest, zoneCredentials "old", .beginUpdate 100 "home" false,
    .call 0 (some { ok := false, errorCode := "http_401", errorMessage := "unauthorized" }),
    .finishUpdate 101 0]

theorem refused_under_current_home :
    Along Watched.step (fun w e => (w.step e).Honest) {} refusedUpdate := by
  refine refused_under_current _ (fun e he => ?_) (by decide +kernel)
  simp only [refusedUpdate, List.mem_cons, List.not_mem_nil, or_false] at he
  rcases he with rfl | rfl | rfl | rfl | rfl
  · exact (by decide : IsNewId "3f2a")
  all_goals trivial

/-- With the new credentials the update is refused for what the old ones met. -/
theorem new_credentials_refused : ¬ Along Watched.step (fun w e => (w.step e).Honest) {}
    (refusedUpdate ++ [zoneCredentials "new"]) := by
  intro h
  have hhonest := h.last 102 "home" .txt (by decide +kernel)
    [("apiToken", "old"), ("zoneId", "zone-1")] (by decide +kernel)
  exact absurd hhonest (by decide +kernel)

end

end LabProbe.Ddns
