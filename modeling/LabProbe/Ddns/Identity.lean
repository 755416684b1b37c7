import LabProbe.Ddns.Acknowledged

/-!
# The identifiers of the records

Edits, deletions and updates find their record by its identifier and take the
first that has it. A new record takes the identifier of the request, which
nothing compares with the others. Everything else keeps the identifiers, a
restart included, since they are written as they are and read back without
white space.
-/

namespace LabProbe.Ddns

open Py Py.Json Runs

def Store.ids (s : Store) : List String := s.records.map Record.id

/-- Identifiers are distinct, so that each leads to its record and no other. -/
def Store.Identified (s : Store) : Prop :=
  s.ids.Nodup ∧ ∀ r ∈ s.records, s.records.filter (·.id == r.id) = [r]

theorem identified_iff {s : Store} : s.Identified ↔ s.ids.Nodup := by
  refine ⟨And.left, fun h => ⟨h, ?_⟩⟩
  unfold Store.ids at h
  intro r hr
  obtain ⟨pre, post, hrecords⟩ := List.append_of_mem hr
  rw [hrecords] at h ⊢
  rw [List.map_append, List.map_cons, List.nodup_middle, List.nodup_cons] at h
  have hother : ∀ r' ∈ pre ++ post, (r'.id == r.id) = false := by
    intro r' hr'
    rw [beq_eq_false_iff_ne]
    intro hid
    exact h.1 (by rw [← List.map_append, ← hid]; exact List.mem_map_of_mem hr')
  have hnone : ∀ l : List Record, (∀ r' ∈ l, r' ∈ pre ++ post) → l.filter (·.id == r.id) = [] := by
    intro l hl
    rw [List.filter_eq_nil_iff]
    intro r' hr'
    simpa using hother r' (hl r' hr')
  rw [List.filter_append, List.filter_cons_of_pos (by simp),
    hnone pre fun r' hr' => List.mem_append_left _ hr',
    hnone post fun r' hr' => List.mem_append_right _ hr', List.nil_append]

section
variable [Unicode]

/-- A new record comes with an identifier that no record has. -/
def System.KeepsIds (s : System) : Event → Prop
  | .saveRecord newId recordId value => recordId = "" →
    ∀ r ∈ (readRequest newId value).toOption, r.id ∉ s.store.ids
  | _ => True

-- ---------------------------------------------------------------------------
-- The identifiers after a step
-- ---------------------------------------------------------------------------

def System.idsAfter (s : System) : Event → List String
  | .saveRecord newId recordId value =>
    if recordId = "" then s.store.ids ++ ((readRequest newId value).toOption.map Record.id).toList
    else s.store.ids
  | .deleteRecord recordId => s.store.ids.filter (· != recordId)
  | _ => s.store.ids

omit [Unicode] in
theorem observe_ids (s : Store) (address : Address) : (s.observe address).ids = s.ids := by
  rw [Store.ids, observe_records, List.map_map]
  rfl

omit [Unicode] in
theorem rewrite_ids (s : Store) {p : Record → Bool} {f : Record → Record}
    (hf : ∀ r, p r = true → (f r).id = r.id) :
    ({ s with records := Rows.updateFirst p f s.records }.save).ids = s.ids :=
  Rows.map_updateFirst hf s.records

theorem saveRecord_ids {s : System} {newId recordId : String} {value : Entries} :
    (s.step (.saveRecord newId recordId value)).store.ids =
      s.idsAfter (.saveRecord newId recordId value) := by
  unfold System.step System.idsAfter Store.saveRecord
  dsimp only
  cases hread : readRequest newId value with
  | error e => simp [Except.toOption]
  | ok r =>
    dsimp only
    split_ifs with hid
    · simp [Store.ids, save_records, Record.created, Except.toOption]
    · cases hfind : s.store.records.find? (·.id == recordId) with
      | none => rfl
      | some old =>
        dsimp only
        exact rewrite_ids _ fun old hold => (beq_iff_eq.mp hold).symm

omit [Unicode] in
theorem deleteRecord_ids (s : Store) (recordId : String) :
    (s.deleteRecord recordId).ids = s.ids.filter (· != recordId) := by
  have hmap : s.ids.filter (· != recordId) = (s.records.filter (·.id != recordId)).map Record.id := by
    rw [Store.ids, List.filter_map]
    rfl
  unfold Store.deleteRecord
  dsimp only
  split
  · rename_i hlen
    rw [hmap, List.filter_eq_self.mpr (List.length_filter_eq_length_iff.mp hlen), Store.ids]
  · rw [Store.ids, save_records, hmap]

omit [Unicode] in
theorem beginUpdate_ids {s s' : Store} {out : Outcome ⊕ Run}
    (h : s.beginUpdate now recordId force = .ok (s', out)) : s'.ids = s.ids := by
  unfold Store.beginUpdate at h
  cases hf : s.records.find? (·.id == recordId) with
  | none => simp [hf] at h
  | some r =>
    rw [hf] at h
    dsimp only at h
    split_ifs at h
    · cases h
      exact rewrite_ids _ fun _ _ => rfl
    · cases h
      refine rewrite_ids _ fun r' _ => ?_
      obtain ⟨status, lastError, hidle⟩ := idle_frame r' (r.noCalls now force)
      rw [hidle]
    · cases h
      exact rewrite_ids _ fun _ _ => rfl

omit [Unicode] in
theorem finishUpdate_ids {s s' : Store} {out : Outcome} {run : Run}
    (h : s.finishUpdate now run = some (s', out)) : s'.ids = s.ids := by
  obtain ⟨r, -, hs⟩ := Option.map_eq_some_iff.mp h
  cases hs
  refine rewrite_ids _ fun r' _ => ?_
  obtain ⟨_, _, _, _, _, _, hfinish⟩ := finish_frame now run r'
  rw [hfinish]

theorem step_ids {s : System} {e : Event} (he : e.isReload = false) :
    (s.step e).store.ids = s.idsAfter e := by
  cases e with
  | acceptAddress now value =>
    simp only [System.step, System.idsAfter, Store.acceptAddress]
    split
    · exact observe_ids _ _
    · rfl
  | saveRecord newId recordId value => exact saveRecord_ids
  | deleteRecord recordId => exact deleteRecord_ids _ _
  | saveCredentials recordId credentials =>
    simp only [System.step, System.idsAfter, Store.ids, saveCredentials_records]
  | beginUpdate now recordId force =>
    simp only [System.step, System.idsAfter]
    cases hbegin : s.store.beginUpdate now recordId force with
    | error e => rfl
    | ok result =>
      obtain ⟨store, out⟩ := result
      cases out <;> exact beginUpdate_ids hbegin
  | call i response =>
    simp only [System.step, System.idsAfter]
    split <;> rfl
  | finishUpdate now i =>
    simp only [System.step, System.idsAfter]
    split
    · split
      · rfl
      · rename_i flight _ _
        cases hfinish : s.store.finishUpdate now flight.run with
        | none => rfl
        | some result => exact finishUpdate_ids hfinish
    · rfl
  | reload newIds => cases he

theorem saved_of_ids {s : System} {e : Event} (he : e.isReload = false)
    (h : s.idsAfter e ≠ s.store.ids) : (s.step e).store.disk =
      some (rootJson (s.step e).store.address (s.step e).store.records) := by
  cases e with
  | saveRecord newId recordId value =>
    rcases @step_disk _ s (.saveRecord newId recordId value) with hdisk | hdisk
    · rw [← step_ids he] at h
      simp only [System.step, Store.saveRecord] at h ⊢
      cases hread : readRequest newId value with
      | error e => simp [hread] at h
      | ok r =>
        simp only [hread] at h ⊢
        split_ifs with hid
        · rfl
        · cases hfind : s.store.records.find? (·.id == recordId) with
          | none => simp [hid, hfind] at h
          | some old => rfl
    · exact hdisk
  | deleteRecord recordId =>
    rw [← step_ids he] at h
    simp only [System.step, Store.deleteRecord] at h ⊢
    split_ifs with hlen
    · simp [hlen] at h
    · rfl
  | _ => exact absurd rfl h

-- ---------------------------------------------------------------------------
-- A restart
-- ---------------------------------------------------------------------------

/-- The document holds the identifiers that are in memory, and they are such
that reading keeps them. -/
structure Mirrored (s : System) : Prop where
  named : ∀ id ∈ s.store.ids, IsNewId id
  empty : s.store.disk = none → s.store.records = []
  disk : ∀ root ∈ s.store.disk, ∃ address records, root = rootJson address records ∧
    records.map Record.id = s.store.ids

omit [Unicode] in
theorem mirrored_empty : Mirrored {} where
  named id h := by cases h
  empty _ := rfl
  disk root h := by cases h

theorem load_map {newIds : Nat → String} {address : Option Address} {records : List Record}
    {secrets : List (String × List (String × String))} {g : Record → α}
    (h : ∀ r ∈ records, ∀ newId, (normalRecord newId r.toJson).map (fun r => g r.restarted) =
      some (g r)) :
    (load newIds (some (rootJson address records)) secrets).records.map g = records.map g := by
  have hstored : storedRecords (some (rootJson address records)) = records.map Record.toJson := rfl
  simp only [load, hstored, List.map_filterMap, Option.map_map, Function.comp_def]
  suffices hread : ∀ n, ((records.map Record.toJson).zipIdx n).filterMap (fun item =>
      (normalRecord (newIds item.2) item.1).map fun r => g r.restarted) = records.map g from
    hread 0
  induction records with
  | nil => exact fun _ => rfl
  | cons r records ih =>
    intro n
    obtain ⟨hr, hrecords⟩ := List.forall_mem_cons.mp h
    rw [List.map_cons, List.zipIdx_cons, List.filterMap_cons]
    dsimp only
    rw [hr (newIds n), ih hrecords rfl, List.map_cons]

theorem load_ids {newIds : Nat → String} {address : Option Address} {records : List Record}
    {secrets : List (String × List (String × String))} (h : ∀ r ∈ records, IsNewId r.id) :
    (load newIds (some (rootJson address records)) secrets).ids = records.map Record.id :=
  load_map fun r hr newId => readBack_id (h r hr) newId

theorem Mirrored.reload {s : System} (h : Mirrored s) (newIds : Nat → String) :
    (s.step (.reload newIds)).store.ids = s.store.ids := by
  cases hdisk : s.store.disk with
  | none =>
    rw [Store.ids, Store.ids, h.empty hdisk]
    simp [System.step, load, hdisk, storedRecords, asDict, dict?, Json.get, list?]
  | some root =>
    obtain ⟨address, records, rfl, hids⟩ := h.disk root hdisk
    simp only [System.step, hdisk]
    rw [load_ids, hids]
    intro r hr
    exact h.named r.id (hids ▸ List.mem_map_of_mem hr)

theorem Mirrored.named_step {s : System} {e : Event} (h : Mirrored s) (hnew : e.NewIds)
    (he : e.isReload = false) : ∀ id ∈ s.idsAfter e, IsNewId id := by
  cases e with
  | saveRecord newId recordId value =>
    intro id hid
    simp only [System.idsAfter] at hid
    split_ifs at hid
    · rcases List.mem_append.mp hid with hid | hid
      · exact h.named id hid
      · cases hread : readRequest newId value with
        | error e => simp [hread, Except.toOption] at hid
        | ok r =>
          obtain rfl : id = r.id := by simpa [hread, Except.toOption] using hid
          exact readRequest_id hnew hread
    · exact h.named id hid
  | deleteRecord recordId => exact fun id hid => h.named id (List.mem_of_mem_filter hid)
  | reload newIds => cases he
  | _ => exact h.named

theorem Mirrored.step {s : System} {e : Event} (h : Mirrored s) (hnew : e.NewIds) :
    Mirrored (s.step e) := by
  cases he : e.isReload with
  | true =>
    cases e <;> simp only [Event.isReload, Bool.false_eq_true] at he
    rename_i newIds
    have hids := h.reload newIds
    refine ⟨hids ▸ h.named, fun hdisk => ?_, fun root hroot => ?_⟩
    · have hnone : (s.step (.reload newIds)).store.ids = [] := by
        rw [hids, Store.ids, h.empty hdisk]
        rfl
      exact List.map_eq_nil_iff.mp hnone
    · rw [hids]
      exact h.disk root hroot
  | false =>
    refine ⟨step_ids he ▸ h.named_step hnew he, fun hdisk => ?_, fun root hroot => ?_⟩
    · by_cases hids : s.idsAfter e = s.store.ids
      · have hnone : (s.step e).store.ids = [] := by
          rcases @step_disk _ s e with hsame | hsaved
          · rw [step_ids he, hids, Store.ids, h.empty (hsame ▸ hdisk)]
            rfl
          · rw [hsaved] at hdisk
            cases hdisk
        exact List.map_eq_nil_iff.mp hnone
      · rw [saved_of_ids he hids] at hdisk
        cases hdisk
    · by_cases hids : s.idsAfter e = s.store.ids
      · rcases @step_disk _ s e with hsame | hsaved
        · rw [step_ids he, hids]
          exact h.disk root (hsame ▸ hroot)
        · rw [hsaved] at hroot
          cases hroot
          exact ⟨_, _, rfl, rfl⟩
      · rw [saved_of_ids he hids] at hroot
        cases hroot
        exact ⟨_, _, rfl, rfl⟩

-- ---------------------------------------------------------------------------
-- When the identifiers are distinct
-- ---------------------------------------------------------------------------

theorem identified_step_iff {s : System} {e : Event} (h : Mirrored s) (hd : s.store.Identified) :
    (s.step e).store.Identified ↔ s.KeepsIds e := by
  rw [identified_iff] at hd ⊢
  cases he : e.isReload with
  | true =>
    cases e <;> simp only [Event.isReload, Bool.false_eq_true] at he
    rw [h.reload]
    exact iff_of_true hd trivial
  | false =>
    rw [step_ids he]
    cases e with
    | saveRecord newId recordId value =>
      simp only [System.idsAfter, System.KeepsIds]
      split_ifs with hid
      · cases hread : readRequest newId value with
        | error e => simpa [Except.toOption] using hd
        | ok r =>
          simp only [Except.toOption, Option.map_some, Option.toList_some, Option.mem_some,
            forall_eq', hid, true_imp_iff]
          rw [← List.concat_eq_append, List.nodup_concat]
          exact and_iff_left hd
      · exact iff_of_true hd fun hempty => absurd hempty hid
    | deleteRecord recordId => exact iff_of_true (hd.filter _) trivial
    | reload newIds => cases he
    | _ => exact iff_of_true hd trivial

/-- From an empty store, the identifiers stay distinct along a run exactly
when every new record comes with an identifier of its own. -/
theorem identified_along_iff (es : List Event) (hnew : ∀ e ∈ es, e.NewIds) :
    Along System.step (fun s e => (s.step e).store.Identified) {} es ↔
      Along System.step System.KeepsIds {} es := by
  have hstart : Mirrored {} ∧ Store.Identified {} := ⟨mirrored_empty, identified_iff.mpr .nil⟩
  refine @along_iff_of _ _ _ _ _ (fun s => Mirrored s ∧ s.store.Identified) _ _ _ hnew hstart ?_ ?_
  · exact fun s e he hs hk => ⟨hs.1.step he, (identified_step_iff hs.1 hs.2).mpr hk⟩
  · exact fun s e _ hs => identified_step_iff hs.1 hs.2

end

section
local instance identityUnicode : Unicode := .ascii

/-- A request that brings the identifier of the record. -/
def duckRequest (hostname : String) : Entries :=
  [("id", .str "home"), ("provider", .str "duckdns"), ("hostname", .str hostname)]

theorem identified_along_iff_home : Along System.step (fun s e => (s.step e).store.Identified) {}
      [.saveRecord "3f2a" "" (duckRequest "home.duckdns.org"), .deleteRecord "home"] ↔
    Along System.step System.KeepsIds {}
      [.saveRecord "3f2a" "" (duckRequest "home.duckdns.org"), .deleteRecord "home"] := by
  refine identified_along_iff _ fun e he => ?_
  rcases List.mem_pair.mp he with rfl | rfl
  · exact (by decide : IsNewId "3f2a")
  · trivial

/-- The second record takes the identifier of the first. -/
theorem identifier_repeats : ¬(run System.step {}
    [.saveRecord "3f2a" "" (duckRequest "home.duckdns.org"),
      .saveRecord "9c81" "" (duckRequest "lab.duckdns.org")]).store.Identified := by
  intro h
  exact absurd h.1 (by decide)

end

end LabProbe.Ddns
