import LabProbe.Ddns.System

/-!
# Records that are read back

A restart reads the records from the document. The texts that reading trims
are trimmed in every store that is reached, so that what was written comes
back as it was, but for the CNAME, whose dot and white space reading takes
off once more.
-/

namespace LabProbe.Ddns

open Py Py.Json

/-- What `uuid.uuid4().hex` is for the store: a text without white space. -/
def IsNewId (id : String) : Prop := id ≠ "" ∧ strip id = id

instance (id : String) : Decidable (IsNewId id) := inferInstanceAs (Decidable (_ ∧ _))

/-- The identifiers an event may hand out are those of `uuid`. -/
def Event.NewIds : Event → Prop
  | .saveRecord newId .. => IsNewId newId
  | .reload newIds => ∀ i, IsNewId (newIds i)
  | _ => True

def storedCname (item : Json) : Option String :=
  match get (asDict (get (asDict item) "publishedValues")) "CNAME" with
  | .str s => some s
  | _ => none

section
variable [Unicode]

-- ---------------------------------------------------------------------------
-- Reading back what was written
-- ---------------------------------------------------------------------------

omit [Unicode] in
/-- The texts that reading trims are trimmed. -/
structure Record.Trimmed (r : Record) : Prop where
  hostname : strip r.hostname = r.hostname
  detected : ∀ f, strip (r.detected.get f) = r.detected.get f
  published : ∀ f : Family, strip (r.published f.type) = r.published f.type

omit [Unicode] in
theorem Record.Trimmed.congr {r r' : Record} (h : r.Trimmed) (hhostname : r'.hostname = r.hostname)
    (hdetected : r'.detected = r.detected) (hpublished : ∀ t, r'.published t = r.published t) :
    r'.Trimmed where
  hostname := by rw [hhostname, h.hostname]
  detected := by
    rw [hdetected]
    exact h.detected
  published f := by rw [hpublished, h.published]

omit [Unicode] in
theorem Record.Trimmed.restarted {r : Record} (h : r.Trimmed) : r.restarted.Trimmed :=
  h.congr rfl rfl fun t => by cases t <;> rfl

omit [Unicode] in
def Address.Trimmed (a : Address) : Prop := ∀ f, strip (a.detected.get f) = a.detected.get f

theorem readRecord_publishedIp (newId : String) (d : Entries) (p : Provider) (f : Family) :
    (readRecord newId d p).published f.type =
      ipText (get d (f.key "publishedIpv4" "publishedIpv6")) f.version := by
  rw [published_type]
  simp only [readRecord, PerFamily.get_of, optionalText_getD]

theorem readRecord_trimmed (newId : String) (d : Entries) (p : Provider) :
    (readRecord newId d p).Trimmed where
  hostname := by simp only [readRecord, strip_text]
  detected f := by simp only [readRecord, PerFamily.get_of, strip_ipText]
  published f := by rw [readRecord_publishedIp, strip_ipText]

theorem normalAddress_trimmed {value : Json} (h : normalAddress value = some a) : a.Trimmed := by
  cases value with
  | dict d =>
    simp only [normalAddress, Option.some.injEq] at h
    subst h
    intro f
    simp only [PerFamily.get_of, strip_ipText]
  | _ => simp [normalAddress] at h

theorem sample_trimmed {s : Store} (h : s.sample now value = some a) : a.Trimmed := by
  obtain ⟨a', ha', rfl⟩ := Option.map_eq_some_iff.mp h
  have htrimmed := normalAddress_trimmed ha'
  unfold Address.dated
  dsimp only
  split <;> exact htrimmed

omit [Unicode] in
theorem storedCname_toJson (r : Record) : storedCname r.toJson = r.publishedValues.cname := by
  unfold storedCname
  have hvalues : get (asDict r.toJson) "publishedValues" = r.publishedValues.toJson := rfl
  rw [hvalues]
  obtain ⟨cname, txt⟩ := r.publishedValues
  cases cname <;> cases txt <;> rfl

omit [Unicode] in
/-- A stored text that is read back at all is read back as it is. -/
theorem readBack_getD {held : Prop} [Decidable held] {stored : Option String}
    {read : String → String} (hread : ∀ v ∈ stored, read v = v)
    (hne : (if held then (stored.filter fun s => strip s ≠ "").map read else none).getD "" ≠ "") :
    (if held then (stored.filter fun s => strip s ≠ "").map read else none).getD "" =
      stored.getD "" := by
  split at hne
  · rename_i hheld
    rw [if_pos hheld]
    cases stored with
    | none => rfl
    | some v =>
      have hv := hread v rfl
      by_cases hblank : strip v = ""
      · simp [Option.filter, hblank] at hne
      · simp [Option.filter, hblank, hv]
  · exact absurd rfl hne

theorem readRecord_published {r : Record} (h : r.Trimmed) {t : RecordType}
    (hcname : t = .cname → ∀ v ∈ storedCname r.toJson, domainValue v = v) (newId : String)
    (hne : (readRecord newId r.entries r.provider).published t ≠ "") :
    (readRecord newId r.entries r.provider).published t = r.published t := by
  have hip : ∀ f : Family, (readRecord newId r.entries r.provider).published f.type ≠ "" →
      (readRecord newId r.entries r.provider).published f.type = r.published f.type := by
    intro f hne
    rw [readRecord_publishedIp] at hne ⊢
    have hget : get r.entries (f.key "publishedIpv4" "publishedIpv6") =
        ofOption .str (r.publishedIp.get f) := by cases f <;> rfl
    rw [hget] at hne ⊢
    have htrim := h.published f
    rw [published_type] at htrim ⊢
    rcases ipText_eq (ofOption .str (r.publishedIp.get f)) f.version with heq | heq
    · exact absurd heq hne
    · rw [heq]
      cases hp : r.publishedIp.get f with
      | none => rfl
      | some v =>
        rw [hp] at htrim
        exact (text_str v).trans htrim
  have hvalues : (readRecord newId r.entries r.provider).publishedValues =
      (readValues r.publishedValues.toJson).restrict (readTypes (get r.entries "recordTypes")) := rfl
  rw [storedCname_toJson] at hcname
  cases t with
  | a => exact hip .ipv4 hne
  | aaaa => exact hip .ipv6 hne
  | cname =>
    simp only [Record.published, hvalues, readValues_toJson, DirectValues.restrict,
      DirectValues.get] at hne ⊢
    exact readBack_getD (hcname rfl) hne
  | txt =>
    simp only [Record.published, hvalues, readValues_toJson, DirectValues.restrict,
      DirectValues.get] at hne ⊢
    rw [← Option.map_id_apply (x := r.publishedValues.txt.filter _)] at hne ⊢
    exact readBack_getD (fun _ _ => rfl) hne

theorem readRecord_id {newId : String} (hnew : IsNewId newId) (d : Entries) (p : Provider) :
    IsNewId (readRecord newId d p).id := by
  dsimp only [readRecord]
  split_ifs with hid
  · exact hnew
  · exact ⟨hid, strip_text _⟩

theorem readRequest_id {newId : String} {value : Entries} {r : Record}
    (hnew : IsNewId newId) (h : readRequest newId value = .ok r) : IsNewId r.id := by
  unfold readRequest at h
  cases hn : normalRecord newId (.dict value) with
  | none => simp [hn] at h
  | some r' =>
    obtain ⟨p, -, rfl⟩ := Option.map_eq_some_iff.mp hn
    rw [hn] at h
    dsimp only at h
    split_ifs at h
    cases hv : validateRecordInput value (readRecord newId value p) with
    | error e => simp [hv, Except.map] at h
    | ok _ =>
      rw [hv] at h
      obtain rfl := Except.ok.inj h
      exact readRecord_id hnew _ _

theorem readRecord_givenId (newId : String) (d : Entries) (p : Provider) : (readRecord newId d p).id =
    if text (get d "id") = "" then newId else text (get d "id") := by
  simp only [readRecord]

theorem published_readRecord (newId newId' : String) (d : Entries) (p : Provider) (t : RecordType) :
    (readRecord newId d p).published t = (readRecord newId' d p).published t := by
  cases t <;> simp only [readRecord, Record.published]

theorem normalRecord_newId {newId : String} {item : Json} {r' : Record}
    (h : normalRecord newId item = some r') : ∃ r, normalRecord "" item = some r ∧
      (∀ t, r.published t = r'.published t) ∧ (r.id ≠ "" → r'.id = r.id) := by
  cases item with
  | dict d =>
    obtain ⟨p, hp, rfl⟩ := Option.map_eq_some_iff.mp h
    refine ⟨readRecord "" d p, ?_, published_readRecord "" newId d p, fun hid => ?_⟩
    · rw [normalRecord, hp, Option.map_some]
    · rw [readRecord_givenId] at hid ⊢
      rw [readRecord_givenId]
      split at hid
      · exact absurd rfl hid
      · rename_i hown
        rw [if_neg hown, if_neg hown]
  | _ => cases h

theorem readBack_id {r : Record} (h : IsNewId r.id) (newId : String) :
    (normalRecord newId r.toJson).map (fun r => r.restarted.id) = some r.id := by
  rw [normalRecord_toJson, Option.map_some]
  have hget : get r.entries "id" = .str r.id := rfl
  dsimp only [Record.restarted, readRecord]
  rw [hget, text_str, h.2, if_neg h.1]

theorem readRequest_trimmed (h : readRequest newId value = .ok r) : r.Trimmed := by
  unfold readRequest at h
  cases hn : normalRecord newId (.dict value) with
  | none => simp [hn] at h
  | some r' =>
    obtain ⟨p, -, rfl⟩ := Option.map_eq_some_iff.mp hn
    rw [hn] at h
    dsimp only at h
    split at h
    · simp at h
    · cases hvalid : validateRecordInput value (readRecord newId value p) with
      | error e => simp [hvalid, Except.map] at h
      | ok _ =>
        rw [hvalid] at h
        obtain rfl := Except.ok.inj h
        exact readRecord_trimmed _ _ _

omit [Unicode] in
theorem created_trimmed {address : Option Address} (h : ∀ a ∈ address, a.Trimmed) {r : Record}
    (hr : r.Trimmed) : (r.created address).Trimmed where
  hostname := hr.hostname
  detected f := by
    cases address with
    | none => cases f <;> exact strip_empty
    | some a => exact h a rfl f
  published f := by
    rw [published_created, hr.published]

theorem edited_trimmed {r old : Record} (hr : r.Trimmed) (hold : old.Trimmed) (recordId : String)
    (value : Entries) : (r.edited recordId value old).Trimmed where
  hostname := hr.hostname
  detected := hold.detected
  published f := by
    rw [published_edited]
    split
    · exact hold.published f
    · exact strip_empty

omit [Unicode] in
theorem finish_trimmed {r : Record} (h : r.Trimmed) (now : Nat) (run : Run) :
    (r.finish now run).Trimmed := by
  obtain ⟨ip, values, updated, stability, error, status, hframe⟩ := finish_frame now run r
  refine ⟨by rw [hframe]; exact h.hostname, by rw [hframe]; exact h.detected, fun f => ?_⟩
  rw [published_finish]
  split
  · cases f <;> exact h.detected _
  · exact h.published f

theorem step_address_trimmed {s : System} {e : Event} (h : ∀ a ∈ s.store.address, a.Trimmed) :
    ∀ a ∈ (s.step e).store.address, a.Trimmed := by
  intro a ha
  cases he : e.isReload with
  | true =>
    cases e <;> simp only [Event.isReload, Bool.false_eq_true] at he
    simp only [System.step, load, Option.mem_def] at ha
    exact normalAddress_trimmed ha
  | false =>
    rw [step_address he] at ha
    cases hsample : s.sample e with
    | none => exact h a (by simpa [hsample] using ha)
    | some address =>
      cases e <;> simp only [System.sample, reduceCtorEq] at hsample
      obtain rfl : address = a := by simpa [System.sample, hsample] using ha
      exact sample_trimmed hsample

-- ---------------------------------------------------------------------------
-- Every reachable store
-- ---------------------------------------------------------------------------

/-- Records and address are without white space, as they are read. -/
structure Tidy (s : System) : Prop where
  records : ∀ r ∈ s.store.records, r.Trimmed ∧ IsNewId r.id
  address : ∀ a ∈ s.store.address, a.Trimmed

theorem loaded_tidy {newIds : Nat → String} (hnew : ∀ i, IsNewId (newIds i)) {raw : Option Json}
    {secrets : List (String × List (String × String))} {r : Record}
    (hr : r ∈ (load newIds raw secrets).records) : r.Trimmed ∧ IsNewId r.id := by
  obtain ⟨item, -, hload⟩ := List.mem_filterMap.mp hr
  obtain ⟨r, hread, rfl⟩ := Option.map_eq_some_iff.mp hload
  unfold normalRecord at hread
  cases hitem : item.1 with
  | dict d =>
    rw [hitem] at hread
    obtain ⟨p, -, rfl⟩ := Option.map_eq_some_iff.mp hread
    have hkeep : ∀ r : Record, IsNewId r.id → IsNewId r.restarted.id := fun _ hid => hid
    exact ⟨(readRecord_trimmed (newIds item.2) d p).restarted, hkeep _ (readRecord_id (hnew _) d p)⟩
  | _ => simp [hitem] at hread

theorem Tidy.yields {s : System} (h : Tidy s) {e : Event} (hnew : e.NewIds)
    (hr : s.Yields e r') : r'.Trimmed ∧ IsNewId r'.id := by
  cases hr with
  | kept hr => exact h.records r' hr
  | sampled hr hsample =>
    obtain ⟨htrimmed, hid⟩ := h.records _ hr
    refine ⟨⟨htrimmed.hostname, sample_trimmed hsample, fun f => ?_⟩, hid⟩
    rw [published_acceptAddress]
    exact htrimmed.published f
  | created hread =>
    have hid : IsNewId _ := readRequest_id hnew hread
    exact ⟨created_trimmed h.address (readRequest_trimmed hread), hid⟩
  | @edited _ _ _ recordId old hread hne hold =>
    obtain ⟨htrimmed, hid⟩ := h.records old (List.mem_of_find?_eq_some hold)
    have hsame : old.id = recordId := by simpa using List.find?_some hold
    exact ⟨edited_trimmed (readRequest_trimmed hread) htrimmed _ _, hsame ▸ hid⟩
  | marked hr =>
    obtain ⟨htrimmed, hid⟩ := h.records _ hr
    exact ⟨htrimmed.congr rfl rfl fun t => by cases t <;> rfl, hid⟩
  | @finished _ flight r now _ _ hr =>
    obtain ⟨htrimmed, hid⟩ := h.records r (List.mem_of_find?_eq_some hr)
    obtain ⟨_, _, _, _, _, _, hframe⟩ := finish_frame now flight.run r
    exact ⟨finish_trimmed htrimmed now flight.run, by rw [hframe]; exact hid⟩
  | loaded hr => exact loaded_tidy hnew hr

theorem Tidy.step {s : System} {e : Event} (h : Tidy s) (hnew : e.NewIds) : Tidy (s.step e) where
  records _ hr := h.yields hnew (yields_of_mem hr)
  address := step_address_trimmed h.address

end

end LabProbe.Ddns
