import LabProbe.Ddns.ReadBack

/-!
# What an update publishes

An update writes into a record, as published, what the record detects or holds
when the update ends; it does so for every type that succeeded, the types it
handed nothing over for included. Where this is the value handed over, what a
record publishes comes from a call that succeeded. A restart reads back what
was written, but for a CNAME with white space in front of its last dot.
-/

namespace LabProbe.Ddns

open Py Py.Json Runs

def System.ending (s : System) : Event → Option Flight
  | .finishUpdate _ i => s.flights[i]?
  | _ => none

section
variable [Unicode]

/-- A record publishes after the step what it published before, or what the
provider acknowledged to the update the step ends. -/
def System.PublishesAcked (s : System) (e : Event) : Prop :=
  ∀ r' ∈ (s.step e).store.records, ∀ t ∈ recordTypes, r'.published t ≠ "" →
    (∃ r ∈ s.store.records, r.id = r'.id ∧ r.published t = r'.published t) ∨
      ∃ flight ∈ s.ending e, flight.run.recordId = r'.id ∧ (t, r'.published t) ∈ flight.acked

instance (s : System) (e : Event) : Decidable (s.PublishesAcked e) := by
  unfold System.PublishesAcked
  infer_instance

-- ---------------------------------------------------------------------------
-- When it holds
-- ---------------------------------------------------------------------------

omit [Unicode] in
/-- Of every type that succeeded, the record still has the value the update
handed over, or one that publishes nothing new. -/
def Record.Holds (run : Run) (r : Record) : Prop :=
  ∀ e ∈ run.results, e.2.success →
    r.value e.1 = "" ∨ r.value e.1 = r.published e.1 ∨ (e.1, r.value e.1) ∈ run.work

omit [Unicode] in
instance (run : Run) (r : Record) : Decidable (r.Holds run) := by
  unfold Record.Holds
  infer_instance

/-- A row of the document that publishes something has an identifier, and
reading does not change a CNAME that a record publishes. -/
def System.ReadsBack (s : System) (item : Json) : Prop :=
  ∀ r ∈ normalRecord "" item, (∃ t ∈ recordTypes, r.published t ≠ "") → r.id ≠ "" ∧
    ∀ v ∈ storedCname item, v ∈ s.store.records.map (·.published .cname) → domainValue v = v

instance (s : System) (item : Json) : Decidable (s.ReadsBack item) := by
  unfold System.ReadsBack
  infer_instance

/-- A new record publishes nothing, the record of an update that ends holds
what the update handed over, and a restart reads back what was published. -/
def System.KeepsValues (s : System) : Event → Prop
  | .saveRecord newId recordId value => recordId = "" →
    ∀ r ∈ (readRequest newId value).toOption, ∀ t ∈ recordTypes, r.published t = ""
  | .finishUpdate _ i => ∀ flight ∈ s.flights[i]?, flight.run.next? = none →
    ∀ r ∈ s.store.records.find? (·.id == flight.run.recordId), r.Holds flight.run
  | .reload _ => ∀ item ∈ storedRecords s.store.disk, s.ReadsBack item
  | _ => True

instance (s : System) (e : Event) : Decidable (s.KeepsValues e) := by
  cases e <;> unfold System.KeepsValues <;> infer_instance

-- ---------------------------------------------------------------------------
-- The invariant
-- ---------------------------------------------------------------------------

omit [Unicode] in
/-- A type that succeeded was acknowledged, where it was handed over. -/
structure Flight.Sound (flight : Flight) : Prop where
  unique : ∀ t v v', (t, v) ∈ flight.run.work → (t, v') ∈ flight.run.work → v = v'
  acked : ∀ e ∈ flight.run.results, e.2.success → ∀ v, (e.1, v) ∈ flight.run.work →
    (e.1, v) ∈ flight.acked

omit [Unicode] in
theorem mem_recordTypes (t : RecordType) : t ∈ recordTypes := by cases t <;> decide

omit [Unicode] in
theorem Flight.Sound.call {flight : Flight} (h : flight.Sound) (response : Option ProviderResult) :
    (flight.call response).Sound := by
  have hwork := (flight.run.call_work response).1
  refine ⟨fun t v v' => hwork.symm ▸ h.unique t v v', ?_⟩
  intro e he hsuccess v hv
  rw [show (flight.call response).run.work = flight.run.work from hwork] at hv
  refine List.mem_append.mpr ?_
  cases hnext : flight.run.next? with
  | none =>
    have hsame : flight.run.call response = flight.run := by simp only [Run.call, hnext]
    exact .inl (h.acked e (hsame ▸ he) hsuccess v hv)
  | some next =>
    obtain ⟨t, w⟩ := next
    simp only [Flight.call, Run.call, hnext] at he
    rcases List.mem_append.mp he with he | he
    · exact .inl (h.acked e he hsuccess v hv)
    · obtain rfl := List.mem_singleton.mp he
      have hw : (t, w) ∈ flight.run.work := List.mem_of_getElem? hnext
      obtain rfl := h.unique t v w hv hw
      have hok : response.any ProviderResult.ok = true := by
        cases response with
        | none => exact absurd hsuccess (by simp [Provider.failed])
        | some response => simpa using hsuccess
      exact .inr (by simp [Flight.answer, hok, hnext])

theorem sound_step {s : System} {e : Event} (h : ∀ flight ∈ s.flights, flight.Sound) :
    ∀ flight ∈ (s.step e).flights, flight.Sound := by
  intro flight hflight
  cases flies_of_mem hflight with
  | kept hflight => exact h flight hflight
  | called hi response => exact (h _ (List.mem_of_getElem? hi)).call response
  | begun hbegin =>
    obtain ⟨r, -, hwork, hresults⟩ := beginUpdate_run hbegin
    refine ⟨fun t v v' hv hv' => ?_, fun e he hsuccess v hv => ?_⟩
    · rw [hwork] at hv hv'
      exact work_unique hv hv'
    · -- a type without a call is not handed over
      rw [hwork] at hv
      rw [hresults] at he
      have hplan := (mem_work.mp hv).2.symm.trans (plan_of_mem_noCalls he)
      exact absurd hplan (by simp)

/-- What a row of the document publishes is published in memory, unless it is
a CNAME that reading changes. -/
def Store.Shows (s : Store) (item : Json) : Prop :=
  ∀ r ∈ normalRecord "" item, r.id ≠ "" → ∃ m ∈ s.records, m.id = r.id ∧
    ∀ t, r.published t ≠ "" → m.published t = r.published t ∨
      t = .cname ∧ m.published .cname ∈ storedCname item ∧
        domainValue (m.published .cname) ≠ m.published .cname

/-- The document shows what is published, and the updates in flight are sound. -/
structure Persisted (s : System) : Prop extends Tidy s where
  sound : ∀ flight ∈ s.flights, flight.Sound
  disk : ∀ item ∈ storedRecords s.store.disk, s.store.Shows item

theorem loaded_shows (newIds : Nat → String) (raw : Option Json)
    (secrets : List (String × List (String × String))) {item : Json}
    (hitem : item ∈ storedRecords raw) : (load newIds raw secrets).Shows item := by
  intro r hr hid
  obtain ⟨i, hi, rfl⟩ := List.mem_iff_getElem.mp hitem
  have hindex : ((storedRecords raw)[i], i) ∈ (storedRecords raw).zipIdx := by
    rw [List.mk_mem_zipIdx_iff_getElem?, List.getElem?_eq_getElem hi]
  cases hread : normalRecord (newIds i) (storedRecords raw)[i] with
  | none =>
    cases hjson : (storedRecords raw)[i] with
    | dict d =>
      rw [hjson] at hr hread
      obtain ⟨p, hp, -⟩ := Option.map_eq_some_iff.mp hr
      rw [normalRecord, hp] at hread
      cases hread
    | _ =>
      rw [hjson] at hr
      cases hr
  | some m =>
    obtain ⟨r', hr', hpublished, hsame⟩ := normalRecord_newId hread
    obtain rfl := Option.some.inj (hr.symm.trans hr')
    refine ⟨m.restarted, List.mem_filterMap.mpr ⟨_, hindex, ?_⟩, hsame hid, fun t _ => .inl ?_⟩
    · rw [hread, Option.map_some]
    · rw [hpublished]
      cases t <;> rfl

theorem written_shows {s : Store} {m : Record} (hm : m ∈ s.records) (htrimmed : m.Trimmed)
    (hid : IsNewId m.id) : s.Shows m.toJson := by
  intro r hr _
  have hback := readBack_id hid ""
  rw [hr, Option.map_some, Option.some.injEq] at hback
  refine ⟨m, hm, hback.symm, fun t hne => ?_⟩
  rw [normalRecord_toJson, Option.mem_def, Option.some.injEq] at hr
  subst hr
  by_cases hcname : t = .cname → ∀ v ∈ storedCname m.toJson, domainValue v = v
  · exact .inl (readRecord_published htrimmed hcname "" hne).symm
  · push Not at hcname
    obtain ⟨rfl, v, hv, hchanged⟩ := hcname
    have hvalue : m.published .cname = v := by
      rw [storedCname_toJson] at hv
      simp only [Record.published, DirectValues.get, Option.mem_def.mp hv, Option.getD_some]
    exact .inr ⟨rfl, hvalue ▸ hv, hvalue ▸ hchanged⟩

theorem Store.Shows.mono {s s' : Store} {item : Json} (h : s.Shows item)
    (hrecords : ∀ m ∈ s.records, ∃ m' ∈ s'.records, m'.id = m.id ∧ ∀ t, m'.published t = m.published t) :
    s'.Shows item := by
  intro r hr hid
  obtain ⟨m, hm, hsame, hpublished⟩ := h r hr hid
  obtain ⟨m', hm', hid', heq⟩ := hrecords m hm
  refine ⟨m', hm', hid'.trans hsame, fun t hne => ?_⟩
  rw [heq, heq]
  exact hpublished t hne

theorem step_unsaved {s : System} {e : Event} (he : e.isReload = false) :
    (s.step e).store.disk = some (rootJson (s.step e).store.address (s.step e).store.records) ∨
      (s.step e).store.disk = s.store.disk ∧ ∀ m ∈ s.store.records,
        ∃ m' ∈ (s.step e).store.records, m'.id = m.id ∧ ∀ t, m'.published t = m.published t := by
  cases hsample : s.sample e with
  | none =>
    rcases (step_writes he hsample).disk with ⟨hdisk, hrecords⟩ | hdisk
    · exact .inr ⟨hdisk, fun m hm => ⟨m, hrecords ▸ hm, rfl, fun _ => rfl⟩⟩
    · exact .inl hdisk
  | some address =>
    rw [step_observes hsample]
    rcases observe_disk s.store address with hdisk | hdisk
    · refine .inr ⟨hdisk, fun m hm => ?_⟩
      rw [observe_records]
      exact ⟨_, List.mem_map_of_mem hm, rfl, published_acceptAddress _ _ m⟩
    · exact .inl hdisk

theorem Persisted.step {s : System} {e : Event} (h : Persisted s) (hnew : e.NewIds) :
    Persisted (s.step e) where
  toTidy := h.toTidy.step hnew
  sound := sound_step h.sound
  disk := by
    intro item hitem
    cases he : e.isReload with
    | true =>
      cases e <;> simp only [Event.isReload, Bool.false_eq_true] at he
      exact loaded_shows _ _ _ hitem
    | false =>
      rcases step_unsaved (s := s) he with hdisk | ⟨hdisk, hrecords⟩
      · rw [hdisk] at hitem
        obtain ⟨m, hm, rfl⟩ := List.mem_map.mp hitem
        obtain ⟨htrimmed, hid⟩ := (h.toTidy.step hnew).records m hm
        exact written_shows hm htrimmed hid
      · rw [hdisk] at hitem
        exact (h.disk item hitem).mono hrecords

-- ---------------------------------------------------------------------------
-- One step
-- ---------------------------------------------------------------------------

omit [Unicode] in
/-- Where the record holds what was handed over, the update publishes what
was acknowledged. -/
theorem Flight.Sound.finish {flight : Flight} (h : flight.Sound) {r : Record}
    (hr : r.Holds flight.run) (now : Nat) (t : RecordType)
    (hne : (r.finish now flight.run).published t ≠ "") :
    (r.finish now flight.run).published t = r.published t ∨
      (t, (r.finish now flight.run).published t) ∈ flight.acked := by
  rw [published_finish] at hne ⊢
  split at hne
  · rename_i hsuccess
    rw [if_pos hsuccess]
    obtain ⟨e, he, rfl, hok⟩ := hsuccess
    rcases hr e he hok with hempty | hsame | hwork
    · exact absurd hempty hne
    · exact .inl hsame
    · exact .inr (h.acked e he hok _ hwork)
  · rename_i hsuccess
    exact .inl (if_neg hsuccess)

theorem publishesAcked {s : System} {e : Event} (h : Persisted s) (hk : s.KeepsValues e) :
    s.PublishesAcked e := by
  intro r' hr' t _ hne
  cases yields_of_mem hr' with
  | kept hr => exact .inl ⟨r', hr, rfl, rfl⟩
  | sampled hr => exact .inl ⟨_, hr, rfl, by simp⟩
  | created hread =>
    rw [published_created] at hne
    exact absurd (hk rfl _ (congrArg Except.toOption hread) t (mem_recordTypes t)) hne
  | @edited _ _ r recordId old hread hid hold =>
    have holdId : old.id = recordId := by simpa using List.find?_some hold
    rw [published_edited] at hne ⊢
    split at hne
    · rename_i hkeeps
      exact .inl ⟨old, List.mem_of_find?_eq_some hold, holdId, by rw [if_pos hkeeps]⟩
    · exact absurd rfl hne
  | marked hr => exact .inl ⟨_, hr, rfl, by cases t <;> rfl⟩
  | @finished i flight r now hflight hdone hr =>
    have hid : r.id = flight.run.recordId := by simpa using List.find?_some hr
    have hid' : (r.finish now flight.run).id = r.id := by
      obtain ⟨_, _, _, _, _, _, hframe⟩ := finish_frame now flight.run r
      rw [hframe]
    have hsound := h.sound flight (List.mem_of_getElem? hflight)
    rcases hsound.finish (hk flight hflight hdone r hr) now t hne with hsame | hacked
    · exact .inl ⟨r, List.mem_of_find?_eq_some hr, hid'.symm, hsame.symm⟩
    · exact .inr ⟨flight, hflight, hid.symm.trans hid'.symm, hacked⟩
  | loaded hr =>
    obtain ⟨item, hindex, hload⟩ := List.mem_filterMap.mp hr
    obtain ⟨r₀, hread, rfl⟩ := Option.map_eq_some_iff.mp hload
    have hitem : item.1 ∈ storedRecords s.store.disk := List.fst_mem_of_mem_zipIdx hindex
    obtain ⟨r, hr, hpublished, hsame⟩ := normalRecord_newId hread
    have hrestarted : ∀ t, r₀.restarted.published t = r.published t := fun t => by
      rw [hpublished]
      cases t <;> rfl
    rw [hrestarted] at hne ⊢
    obtain ⟨hid, hcname⟩ := hk item.1 hitem r hr ⟨t, mem_recordTypes t, hne⟩
    obtain ⟨m, hm, hmid, hshown⟩ := h.disk item.1 hitem r hr hid
    refine .inl ⟨m, hm, hmid.trans (hsame hid).symm, ?_⟩
    rcases hshown t hne with heq | ⟨-, hstored, hchanged⟩
    · exact heq
    · exact absurd (hcname _ hstored (List.mem_map_of_mem hm)) hchanged

/-- In the runs whose new records publish nothing, whose updates end with the
values they handed over and whose restarts read back what was published,
records publish what was acknowledged. -/
theorem published_from_acks (newIds : Nat → String) (hids : ∀ i, IsNewId (newIds i))
    (raw : Option Json) (secrets : List (String × List (String × String))) (es : List Event)
    (hnew : ∀ e ∈ es, e.NewIds)
    (hk : Along System.step System.KeepsValues (System.loaded newIds raw secrets) es) :
    Along System.step System.PublishesAcked (System.loaded newIds raw secrets) es := by
  have hstart : Persisted (System.loaded newIds raw secrets) :=
    { records := fun _ hr => loaded_tidy hids hr
      address := fun _ ha => normalAddress_trimmed ha
      sound := fun _ hflight => absurd hflight List.not_mem_nil
      disk := fun _ hitem => loaded_shows _ _ _ hitem }
  have hsteps := along_and.mpr ⟨hk, along_of_forall hnew⟩
  exact hsteps.mono hstart (fun _ _ h hs => h.step hs.2) fun _ _ h hs => publishesAcked h hs.1

end

section
local instance asciiPublished : Unicode := .ascii

def homeRequest : Entries :=
  [("provider", .str "dynv6"), ("hostname", .str "home.example"), ("recordTypes", .str "A")]

/-- A report of a public address. -/
def homeReport (ip : String) (detectedAt : Nat) : Event :=
  .acceptAddress detectedAt (.dict [("detectedIpv4", .str ip), ("ipv4State", .str "public"),
    ("detectedAt", .int detectedAt)])

/-- A record, two reports of its address, and an update that hands it over. -/
def homeUpdate : List Event :=
  [.saveRecord "home" "" homeRequest, homeReport "1.2.3.4" 100, homeReport "1.2.3.4" 101,
    .beginUpdate 101 "home" false, .call 0 (some { ok := true })]

/-- The update ends, and the Hub is started again. -/
theorem published_from_acks_home :
    Along System.step System.PublishesAcked (System.loaded (fun _ => "3f2a") none [])
      (homeUpdate ++ [.finishUpdate 102 0, .reload fun _ => "3f2a"]) := by
  refine published_from_acks _ (fun _ => by decide) _ _ _ (fun e he => ?_) (by decide +kernel)
  simp only [homeUpdate, List.mem_append, List.mem_cons, List.not_mem_nil, or_false] at he
  rcases he with (rfl | rfl | rfl | rfl | rfl) | rfl | rfl
  · exact (by decide : IsNewId "home")
  · trivial
  · trivial
  · trivial
  · trivial
  · trivial
  · exact fun _ => (by decide : IsNewId "3f2a")

/-- The address changes during the call, and the update publishes the new one. -/
theorem published_not_from_acks_home :
    ¬ Along System.step System.PublishesAcked (System.loaded (fun _ => "3f2a") none [])
      (homeUpdate ++ [homeReport "5.6.7.8" 102, .finishUpdate 102 0]) := by
  decide +kernel

end

end LabProbe.Ddns
