import LabProbe.Ddns.Identity

/-!
# Edits while an update is in flight

The last part of an update looks its record up again. Where the record was
deleted meanwhile, the lookup raises; where it was switched off, the update
still writes the status of its results. As long as each update finds its
record switched on, it finishes, and a record shows `disabled` exactly when
it is off.
-/

namespace LabProbe.Ddns

open Py Py.Json Runs

/-- The last part of an update finds a record. -/
def System.Finishes (s : System) : Event → Prop
  | .finishUpdate now i => ∀ flight ∈ s.flights[i]?, flight.run.next? = none →
    (s.store.finishUpdate now flight.run).isSome
  | _ => True

instance (s : System) (e : Event) : Decidable (s.Finishes e) :=
  match e with
  | .finishUpdate _ i => inferInstanceAs (Decidable (∀ flight ∈ s.flights[i]?, _ → _ = true))
  | .acceptAddress .. | .saveRecord .. | .deleteRecord .. | .saveCredentials .. |
    .beginUpdate .. | .call .. | .reload .. => instDecidableTrue

def Record.Shown (r : Record) : Prop := r.status = .disabled ↔ r.enabled = false

instance : DecidablePred Record.Shown := fun _ => inferInstanceAs (Decidable (_ ↔ _))

/-- Between the updates, a record shows `disabled` exactly when it is off. -/
def System.ShowsDisabled (s : System) : Prop :=
  s.flights = [] → ∀ r ∈ s.store.records, r.Shown

section
variable [Unicode]

/-- The last part of an update adds and moves no record, and changes none
that goes by another identifier. -/
def System.SparesOthers (s : System) : Event → Prop
  | .finishUpdate now i => ∀ flight ∈ s.flights[i]?,
    (s.step (.finishUpdate now i)).store.ids = s.store.ids ∧
      ∀ (j : Nat) (r : Record), s.store.records[j]? = some r → r.id ≠ flight.run.recordId →
        (s.step (.finishUpdate now i)).store.records[j]? = some r
  | _ => True

omit [Unicode] in
/-- An update that ends finds its record, switched on. -/
def System.KeepsRecord (s : System) : Event → Prop
  | .finishUpdate _ i => ∀ flight ∈ s.flights[i]?, flight.run.next? = none →
    (s.store.records.find? (·.id == flight.run.recordId)).any Record.enabled = true
  | _ => True

omit [Unicode] in
instance (s : System) (e : Event) : Decidable (s.KeepsRecord e) :=
  match e with
  | .finishUpdate _ i => inferInstanceAs (Decidable (∀ flight ∈ s.flights[i]?, _ → _ = true))
  | .acceptAddress .. | .saveRecord .. | .deleteRecord .. | .saveCredentials .. |
    .beginUpdate .. | .call .. | .reload .. => instDecidableTrue

theorem sparesOthers (s : System) (e : Event) : s.SparesOthers e := by
  cases e with
  | finishUpdate now i =>
    intro flight hflight
    refine ⟨step_ids rfl, fun j r hr hne => ?_⟩
    simp only [System.step, Option.mem_def.mp hflight]
    split
    · exact hr
    · cases hfinish : s.store.finishUpdate now flight.run with
      | none => exact hr
      | some result =>
        obtain ⟨_, -, hs⟩ := Option.map_eq_some_iff.mp hfinish
        cases hs
        exact Rows.getElem?_updateFirst hr (by simpa using hne)
  | _ => trivial

-- ---------------------------------------------------------------------------
-- The status of a record
-- ---------------------------------------------------------------------------

omit [Unicode] in
theorem shown_of_enabled {r : Record} (henabled : r.enabled = true) (hstatus : r.status ≠ .disabled) :
    r.Shown := by simp [Record.Shown, henabled, hstatus]

omit [Unicode] in
theorem shown_of_disabled {r : Record} (henabled : r.enabled = false) (hstatus : r.status = .disabled) :
    r.Shown := by simp [Record.Shown, henabled, hstatus]

omit [Unicode] in
theorem freshStatus_ne (r : Record) : r.freshStatus ≠ .disabled := by
  unfold Record.freshStatus
  split <;> decide

omit [Unicode] in
theorem shown_reported {r : Record} (h : r.Shown) {status : FlowStatus} {lastError : Option String}
    (hreport : r.reportStatus = (status, lastError)) : status = .disabled ↔ r.enabled = false := by
  unfold Record.reportStatus at hreport
  cases henabled : r.enabled with
  | false =>
    simp only [henabled, Bool.not_false, if_true, Prod.mk.injEq] at hreport
    exact iff_of_true hreport.1.symm rfl
  | true =>
    have hstatus : r.status ≠ .disabled := fun hd => by simp [h.mp hd] at henabled
    refine iff_of_false ?_ (by simp)
    simp only [henabled, Bool.not_true, Bool.false_eq_true, if_false] at hreport
    split_ifs at hreport <;> cases hreport
    · exact hstatus
    all_goals decide

omit [Unicode] in
theorem shown_acceptAddress {r : Record} (h : r.Shown) (sampleChanged : Bool) (address : Address) :
    (r.acceptAddress sampleChanged address).1.Shown :=
  shown_reported
    (r := { r.sample address with
      stability := if sampleChanged then (r.sample address).trackers else r.stability })
    h rfl

omit [Unicode] in
theorem shown_created (address : Option Address) (r : Record) : (r.created address).Shown := by
  cases henabled : r.enabled with
  | false => exact shown_of_disabled henabled (by simp [Record.created, henabled])
  | true =>
    refine shown_of_enabled henabled ?_
    simp only [Record.created, henabled, Bool.not_true, Bool.false_eq_true, if_false]
    exact freshStatus_ne _

theorem shown_edited (recordId : String) (value : Entries) (r old : Record) :
    (r.edited recordId value old).Shown := by
  cases henabled : boolOf (getD value "enabled" (.bool old.enabled)) true with
  | false => exact shown_of_disabled henabled (by simp [Record.edited, henabled])
  | true =>
    refine shown_of_enabled henabled ?_
    have hstatus : ∃ kept : Record, (r.edited recordId value old).status =
        if !boolOf (getD value "enabled" (.bool old.enabled)) true then .disabled
        else if old.recordTypes ≠ r.recordTypes ∨ old.recordValues ≠ r.recordValues ∨
          old.status = .disabled then kept.freshStatus
        else old.status := ⟨_, rfl⟩
    obtain ⟨kept, hstatus⟩ := hstatus
    rw [hstatus, henabled, if_neg (by decide)]
    split_ifs with hchanged
    · exact freshStatus_ne kept
    · exact fun hold => hchanged (.inr (.inr hold))

omit [Unicode] in
theorem shown_idle {r : Record} (h : r.Shown) (henabled : r.enabled = true)
    (results : List (RecordType × Result)) : (r.idle results).Shown := by
  have hstatus : r.status ≠ .disabled := fun hd => by simp [h.mp hd] at henabled
  obtain ⟨status, lastError, hidle⟩ := idle_frame r results
  refine shown_of_enabled (by rw [hidle]; exact henabled) ?_
  unfold Record.idle
  dsimp only
  split_ifs <;> first | exact hstatus | (dsimp only; decide)

omit [Unicode] in
theorem shown_finish {r : Record} (henabled : r.enabled = true) (now : Nat) (run : Run) :
    (r.finish now run).Shown := by
  obtain ⟨_, _, _, _, _, _, hfinish⟩ := finish_frame now run r
  refine shown_of_enabled (by rw [hfinish]; exact henabled) ?_
  unfold Record.finish
  dsimp only
  split_ifs <;> decide

omit [Unicode] in
theorem shown_beginUpdate {s s' : Store} {out : Outcome ⊕ Run} (hs : ∀ r ∈ s.records, r.Shown)
    (h : s.beginUpdate now recordId force = .ok (s', out)) : ∀ r ∈ s'.records, r.Shown := by
  unfold Store.beginUpdate at h
  cases hf : s.records.find? (·.id == recordId) with
  | none => simp [hf] at h
  | some r =>
    rw [hf] at h
    dsimp only at h
    have hr := hs r (List.mem_of_find?_eq_some hf)
    have hwrite : ∀ f : Record → Record, (f r).Shown →
        ∀ r' ∈ { s with records := Rows.updateFirst (·.id == recordId) f s.records }.save.records,
          r'.Shown := by
      intro f hshown r' hm
      rcases Rows.mem_updateFirst hm with hm | ⟨a, ha, rfl⟩
      · exact hs r' hm
      · rwa [Option.some.inj (ha.symm.trans hf)]
    split_ifs at h with henabled
    · cases h
      exact hwrite _ (shown_of_disabled (by simpa using henabled) rfl)
    · cases h
      exact hwrite _ (shown_idle hr (by simpa using henabled) _)
    · cases h
      exact hwrite _ (shown_of_enabled (by simpa using henabled)
        (show FlowStatus.updating ≠ .disabled by decide))

-- ---------------------------------------------------------------------------
-- Reading back
-- ---------------------------------------------------------------------------

omit [Unicode] in
theorem ofName_name (status : FlowStatus) : FlowStatus.ofName status.name = some status := by
  cases status <;> decide

theorem shown_readBack {r : Record} (h : r.Shown) (newId : String) :
    (readRecord newId r.entries r.provider).restarted.Shown := by
  have henabled : getD r.entries "enabled" (.bool true) = .bool r.enabled := rfl
  have hstatus : get r.entries "status" = .str r.status.name := rfl
  have hstrip : strip r.status.name = r.status.name := by cases r.status <;> decide
  dsimp only [Record.Shown, Record.restarted, readRecord]
  rw [henabled, hstatus, text_str, hstrip, ofName_name]
  cases hon : r.enabled with
  | false => simp [boolOf]
  | true => simpa [boolOf, Record.Shown, hon] using h

/-- In memory and in the document, a record shows `disabled` exactly when it is off. -/
structure Consistent (s : System) : Prop where
  records : ∀ r ∈ s.store.records, r.Shown
  disk : ∀ root ∈ s.store.disk, ∃ address records, root = rootJson address records ∧
    ∀ r ∈ records, r.Shown

omit [Unicode] in
theorem consistent_empty : Consistent {} where
  records r h := by cases h
  disk root h := by cases h

theorem Consistent.reload {s : System} (h : Consistent s) (newIds : Nat → String) :
    ∀ r ∈ (s.step (.reload newIds)).store.records, r.Shown := by
  intro r hr
  obtain ⟨item, hitem, hread⟩ := List.mem_filterMap.mp hr
  cases hdisk : s.store.disk with
  | none =>
    rw [hdisk] at hitem
    simp [storedRecords, asDict, dict?, Json.get, list?] at hitem
  | some root =>
    obtain ⟨address, records, rfl, hshown⟩ := h.disk root hdisk
    have hstored : storedRecords (some (rootJson address records)) = records.map Record.toJson := rfl
    rw [hdisk, hstored] at hitem
    obtain ⟨old, hold, hjson⟩ := List.mem_map.mp (List.fst_mem_of_mem_zipIdx hitem)
    rw [← hjson, normalRecord_toJson, Option.map_some] at hread
    obtain rfl := Option.some.inj hread
    exact shown_readBack (hshown old hold) _

theorem Consistent.begun {s : System} (h : Consistent s) {now : Nat} {recordId : String}
    {force : Bool} : ∀ r ∈ (s.step (.beginUpdate now recordId force)).store.records, r.Shown := by
  intro r hr
  simp only [System.step] at hr
  cases hbegin : s.store.beginUpdate now recordId force with
  | error e =>
    rw [hbegin] at hr
    exact h.records r hr
  | ok result =>
    obtain ⟨store, out⟩ := result
    refine shown_beginUpdate h.records hbegin r ?_
    cases out <;> simpa only [hbegin] using hr

theorem Consistent.records_step {s : System} {e : Event} (h : Consistent s) (hk : s.KeepsRecord e) :
    ∀ r ∈ (s.step e).store.records, r.Shown := by
  intro r hr
  cases yields_of_mem hr with
  | kept hold => exact h.records r hold
  | sampled hold => exact shown_acceptAddress (h.records _ hold) _ _
  | created => exact shown_created _ _
  | edited => exact shown_edited _ _ _ _
  | marked => exact h.begun _ hr
  | finished hflight hdone hfind =>
    have henabled := hk _ hflight hdone
    rw [hfind] at henabled
    exact shown_finish henabled _ _
  | loaded => exact h.reload _ _ hr

theorem Consistent.step {s : System} {e : Event} (h : Consistent s) (hk : s.KeepsRecord e) :
    Consistent (s.step e) := by
  refine ⟨h.records_step hk, fun root hroot => ?_⟩
  rcases @step_disk _ s e with hsame | hsaved
  · exact h.disk root (hsame ▸ hroot)
  · rw [hsaved] at hroot
    cases hroot
    exact ⟨_, _, rfl, h.records_step hk⟩

omit [Unicode] in
theorem finishes_of_keepsRecord {s : System} {e : Event} (hk : s.KeepsRecord e) : s.Finishes e := by
  cases e with
  | finishUpdate now i =>
    intro flight hflight hdone
    obtain ⟨r, hfind, -⟩ := (Option.any_eq_true _ _).mp (hk flight hflight hdone)
    rw [Store.finishUpdate, hfind]
    rfl
  | _ => trivial

/-- An update in flight leaves the other records and brings none back. Where
every update that ends finds its record switched on, it finishes, and between
the updates the status `disabled` is that of the records that are off. -/
theorem updates_beside_edits (es : List Event) :
    Along System.step System.SparesOthers {} es ∧
      (Along System.step System.KeepsRecord {} es →
        Along System.step (fun s e => s.Finishes e ∧ (s.step e).ShowsDisabled) {} es) := by
  constructor
  · exact along_of_invariant (I := fun _ => True) trivial (fun _ _ _ => trivial)
      fun s e _ => sparesOthers s e
  · intro hk
    refine hk.mono consistent_empty (fun s e hs hk => hs.step hk) fun s e hs hk => ?_
    exact ⟨finishes_of_keepsRecord hk, fun _ => (hs.step hk).records⟩

end

section
local instance concurrentUnicode : Unicode := .ascii

/-- During the call the record gets another period, and its address is reported
again. -/
def editedMeanwhile : List Event :=
  homeUpdate ++ [.saveRecord "3f2a" "home" (homeRequest ++ [("ttl", .int 300)]),
    homeReport "1.2.3.4" 102]

theorem updates_beside_edits_home :
    Along System.step System.SparesOthers {} (editedMeanwhile ++ [.finishUpdate 102 0]) ∧
      Along System.step (fun s e => s.Finishes e ∧ (s.step e).ShowsDisabled) {}
        (editedMeanwhile ++ [.finishUpdate 102 0]) := by
  have h := updates_beside_edits (editedMeanwhile ++ [.finishUpdate 102 0])
  exact ⟨h.1, h.2 (by decide +kernel)⟩

def switchOff : Entries := homeRequest ++ [("enabled", .bool false)]

def deletedMeanwhile : List Event := homeUpdate ++ [.deleteRecord "home"]

def switchedMeanwhile : List Event := homeUpdate ++ [.saveRecord "3f2a" "home" switchOff]

/-- The record is deleted during the call, and the last part of the update
raises; it is switched off during the call, and shows `published`. -/
theorem edits_disturb_updates :
    ¬Along System.step (fun s e => s.Finishes e ∧ (s.step e).ShowsDisabled) {}
      (deletedMeanwhile ++ [.finishUpdate 102 0]) ∧
    ¬Along System.step (fun s e => s.Finishes e ∧ (s.step e).ShowsDisabled) {}
      (switchedMeanwhile ++ [.finishUpdate 102 0]) := by
  constructor
  · intro h
    exact absurd h.last.1 (by decide +kernel)
  · intro h
    have hidle := List.eq_nil_of_length_eq_zero
      (show ((run System.step {} switchedMeanwhile).step (.finishUpdate 102 0)).flights.length = 0 by
        decide +kernel)
    exact absurd (h.last.2 hidle) (by decide +kernel)

end

end LabProbe.Ddns
