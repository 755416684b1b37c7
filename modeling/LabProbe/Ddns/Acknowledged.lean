import LabProbe.Ddns.Published

/-!
# What a record publishes was acknowledged under its name

A record trusts what it publishes: an update hands nothing over for a value
that is published already. The published values are kept by edits, read from
requests that create records, and read again from the document after a
restart.
-/

namespace LabProbe.Ddns

open Py Py.Json Runs

/-- What a record publishes was acknowledged for its provider and hostname. -/
def System.PublishedAcked (s : System) : Prop :=
  ∀ r ∈ s.store.records, ∀ t ∈ recordTypes, r.published t ≠ "" →
    ⟨r.provider, r.hostname, t, r.published t⟩ ∈ s.acks

instance (s : System) : Decidable s.PublishedAcked := by
  unfold System.PublishedAcked
  infer_instance

-- ---------------------------------------------------------------------------
-- When it holds
-- ---------------------------------------------------------------------------

def Record.Renews (run : Run) (r : Record) : Prop :=
  ∃ e ∈ run.results, e.2.success = true ∧ r.value e.1 ≠ "" ∧ r.value e.1 ≠ r.published e.1

section
variable [Unicode]

/-- A new record publishes nothing, an edit keeps the provider and the
hostname of what it keeps published, an update that publishes something new
ends with the values and under the name it handed over, and no published
CNAME changes when it is read back. -/
def System.KeepsNames (s : System) : Event → Prop
  | .saveRecord newId recordId value => ∀ r ∈ (readRequest newId value).toOption,
    (recordId = "" → ∀ t ∈ recordTypes, r.published t = "") ∧
    (recordId ≠ "" → ∀ old ∈ s.store.records.find? (·.id == recordId),
      (∃ t ∈ recordTypes, r.keeps t ∧ old.published t ≠ "") →
        r.provider = old.provider ∧ r.hostname = old.hostname)
  | .finishUpdate _ i => ∀ flight ∈ s.flights[i]?, flight.run.next? = none →
    ∀ r ∈ s.store.records.find? (·.id == flight.run.recordId), r.Renews flight.run →
      r.Holds flight.run ∧ r.provider = flight.run.provider ∧ r.hostname = flight.run.hostname
  | .reload _ => ∀ item ∈ storedRecords s.store.disk, ∀ v ∈ storedCname item, domainValue v = v
  | _ => True

instance (s : System) (e : Event) : Decidable (s.KeepsNames e) := by
  unfold System.KeepsNames Record.Renews
  exact match e with
    | .acceptAddress .. | .saveRecord .. | .deleteRecord .. | .saveCredentials .. |
      .beginUpdate .. | .call .. | .finishUpdate .. | .reload .. => inferInstance

-- ---------------------------------------------------------------------------
-- The invariant
-- ---------------------------------------------------------------------------

omit [Unicode] in
structure Record.Backed (acks : List Ack) (r : Record) : Prop extends r.Trimmed where
  acked : ∀ t, r.published t ≠ "" → ⟨r.provider, r.hostname, t, r.published t⟩ ∈ acks

omit [Unicode] in
theorem Record.Backed.mono {acks acks' : List Ack} {r : Record} (h : r.Backed acks)
    (hacks : ∀ ack ∈ acks, ack ∈ acks') : r.Backed acks' :=
  { h with acked := fun t hne => hacks _ (h.acked t hne) }

omit [Unicode] in
theorem Record.Backed.congr {acks : List Ack} {r r' : Record} (h : r.Backed acks)
    (hprovider : r'.provider = r.provider) (hhostname : r'.hostname = r.hostname)
    (hdetected : ∀ f, strip (r'.detected.get f) = r'.detected.get f)
    (hpublished : ∀ t, r'.published t = r.published t) : r'.Backed acks where
  hostname := by rw [hhostname, h.hostname]
  detected := hdetected
  published f := by rw [hpublished, h.published]
  acked t := by
    rw [hprovider, hhostname, hpublished]
    exact h.acked t

structure Backed (s : System) : Prop where
  records : ∀ r ∈ s.store.records, r.Backed s.acks
  address : ∀ a ∈ s.store.address, a.Trimmed
  disk : ∀ root ∈ s.store.disk, ∃ address records, root = rootJson address records ∧
    ∀ r ∈ records, r.Backed s.acks
  sound : ∀ flight ∈ s.flights, flight.Sound
  flights : ∀ flight ∈ s.flights, ∀ e ∈ flight.acked,
    ⟨flight.run.provider, flight.run.hostname, e.1, e.2⟩ ∈ s.acks

omit [Unicode] in
theorem Backed.empty : Backed {} where
  records _ h := nomatch h
  address _ h := nomatch h
  disk _ h := nomatch h
  sound _ h := nomatch h
  flights _ h := nomatch h

omit [Unicode] in
/-- An update that publishes something new does so under the name it was
acknowledged for. -/
theorem Backed.finish {s : System} (h : Backed s) {flight : Flight} (hflight : flight ∈ s.flights)
    {r : Record} (hr : r ∈ s.store.records) (hk : r.Renews flight.run →
      r.Holds flight.run ∧ r.provider = flight.run.provider ∧ r.hostname = flight.run.hostname)
    (now : Nat) : (r.finish now flight.run).Backed s.acks := by
  obtain ⟨ip, values, updated, stability, error, status, hframe⟩ := finish_frame now flight.run r
  have hprovider : (r.finish now flight.run).provider = r.provider := by rw [hframe]
  have hhostname : (r.finish now flight.run).hostname = r.hostname := by rw [hframe]
  have hback := h.records r hr
  refine ⟨finish_trimmed hback.toTrimmed now flight.run, fun t hne => ?_⟩
  rw [hprovider, hhostname]
  by_cases hsame : (r.finish now flight.run).published t = r.published t
  · rw [hsame] at hne ⊢
    exact hback.acked t hne
  · have hrenews : r.Renews flight.run := by
      rw [published_finish] at hne hsame
      split at hne
      · rename_i hsuccess
        rw [if_pos hsuccess] at hsame
        obtain ⟨e, he, rfl, hok⟩ := hsuccess
        exact ⟨e, he, hok, hne, hsame⟩
      · rename_i hsuccess
        exact absurd (if_neg hsuccess) hsame
    obtain ⟨hholds, hp, hh⟩ := hk hrenews
    rcases (h.sound flight hflight).finish hholds now t hne with heq | hacked
    · exact absurd heq hsame
    · rw [hp, hh]
      exact h.flights flight hflight _ hacked

omit [Unicode] in
theorem Record.Backed.restarted {acks : List Ack} {r : Record} (h : r.Backed acks) :
    r.restarted.Backed acks :=
  h.congr rfl rfl h.detected fun t => by cases t <;> rfl

omit [Unicode] in
theorem Backed.stored {s : System} (h : Backed s) (hitem : item ∈ storedRecords s.store.disk) :
    ∃ r : Record, r.Backed s.acks ∧ item = r.toJson := by
  cases hdisk : s.store.disk with
  | none =>
    rw [hdisk] at hitem
    exact absurd hitem List.not_mem_nil
  | some root =>
    obtain ⟨address, records, rfl, hback⟩ := h.disk root hdisk
    have hrecords : storedRecords (some (rootJson address records)) = records.map Record.toJson := rfl
    rw [hdisk, hrecords] at hitem
    obtain ⟨r, hr, rfl⟩ := List.mem_map.mp hitem
    exact ⟨r, hback r hr, rfl⟩

theorem Record.Backed.reload {acks : List Ack} {r : Record} (h : r.Backed acks)
    (hcname : ∀ v ∈ storedCname r.toJson, domainValue v = v) (newId : String) :
    (readRecord newId r.entries r.provider).Backed acks := by
  have hget : get r.entries "hostname" = .str r.hostname := rfl
  have hhostname : (readRecord newId r.entries r.provider).hostname = r.hostname := by
    simp only [readRecord, hget, text_str, h.hostname]
  have hprovider : (readRecord newId r.entries r.provider).provider = r.provider := by
    simp only [readRecord]
  refine { readRecord_trimmed newId r.entries r.provider with acked := fun t hne => ?_ }
  have hsame := readRecord_published h.toTrimmed (fun _ => hcname) newId hne
  rw [hprovider, hhostname, hsame]
  exact h.acked t (hsame ▸ hne)

theorem Backed.record {s : System} {e : Event} (h : Backed s) (hk : s.KeepsNames e)
    (hr : s.Yields e r') : r'.Backed s.acks := by
  cases hr with
  | kept hr => exact h.records r' hr
  | sampled hr hsample =>
    exact (h.records _ hr).congr rfl rfl (sample_trimmed hsample) fun t => by simp
  | created hread =>
    have hbare := (hk _ (congrArg Except.toOption hread)).1 rfl
    have hpublished := fun t => hbare t (mem_recordTypes t)
    refine { created_trimmed h.address (readRequest_trimmed hread) with acked := ?_ }
    intro t hne
    rw [published_created] at hne
    exact absurd (hpublished t) hne
  | @edited _ _ r recordId old hread hid hold =>
    have hback := h.records old (List.mem_of_find?_eq_some hold)
    refine ⟨edited_trimmed (readRequest_trimmed hread) hback.toTrimmed _ _, fun t hne => ?_⟩
    rw [published_edited] at hne ⊢
    split at hne
    · rename_i hkeeps
      rw [if_pos hkeeps]
      obtain ⟨hp, hh⟩ := (hk r (congrArg Except.toOption hread)).2 hid old hold
        ⟨t, mem_recordTypes t, hkeeps, hne⟩
      have hack := hback.acked t hne
      rw [← hp, ← hh] at hack
      exact hack
    · exact absurd rfl hne
  | marked hr =>
    exact (h.records _ hr).congr rfl rfl (h.records _ hr).detected fun t => by cases t <;> rfl
  | finished hflight hdone hr =>
    exact h.finish (List.mem_of_getElem? hflight) (List.mem_of_find?_eq_some hr)
      (hk _ hflight hdone _ hr) _
  | loaded hr =>
    obtain ⟨item, hitem, hload⟩ := List.mem_filterMap.mp hr
    obtain ⟨r, hread, rfl⟩ := Option.map_eq_some_iff.mp hload
    have hstored : item.1 ∈ storedRecords s.store.disk := List.fst_mem_of_mem_zipIdx hitem
    obtain ⟨r₀, hback, hitem⟩ := h.stored hstored
    rw [hitem, normalRecord_toJson] at hread
    obtain rfl := Option.some.inj hread
    exact (hback.reload (hitem ▸ hk item.1 hstored) _).restarted

theorem Backed.step {s : System} {e : Event} (h : Backed s) (hk : s.KeepsNames e) :
    Backed (s.step e) := by
  have hrecords : ∀ r ∈ (s.step e).store.records, r.Backed (s.step e).acks := fun r hr =>
    (h.record hk (yields_of_mem hr)).mono fun _ => step_acks
  refine ⟨hrecords, step_address_trimmed h.address, ?_, sound_step h.sound, ?_⟩
  · intro root hroot
    rcases step_disk (s := s) (e := e) with hdisk | hdisk
    · obtain ⟨address, records, rfl, hback⟩ := h.disk root (hdisk ▸ hroot)
      exact ⟨address, records, rfl, fun r hr => (hback r hr).mono fun _ => step_acks⟩
    · rw [hdisk] at hroot
      cases hroot
      exact ⟨_, _, rfl, hrecords⟩
  · intro flight hflight
    cases flies_of_mem hflight with
    | kept hflight => exact fun e he => step_acks (h.flights flight hflight e he)
    | @called i flight hi response =>
      obtain ⟨-, -, hprovider, hhostname⟩ := flight.run.call_work response
      intro e he
      simp only [Flight.call, hprovider, hhostname, System.step, hi]
      rcases List.mem_append.mp he with he | he
      · exact List.mem_append_left _ (h.flights flight (List.mem_of_getElem? hi) e he)
      · exact List.mem_append_right _ (List.mem_map.mpr ⟨e, he, rfl⟩)
    | begun =>
      intro e he
      cases he

/-- In the runs from an empty store whose requests and updates keep the
names, every published value was acknowledged for its provider and hostname. -/
theorem published_acked (es : List Event) (hk : Along System.step System.KeepsNames {} es) :
    (run System.step {} es).PublishedAcked := by
  have hback : Backed (run System.step {} es) := hk.invariant .empty fun _ _ h hk => h.step hk
  exact fun r hr t _ hne => (hback.records r hr).acked t hne

end

section
local instance asciiAcknowledged : Unicode := .ascii

/-- The update ends, and its record is read back after a restart. -/
theorem published_acked_home :
    (run System.step {} (homeUpdate ++ [.finishUpdate 102 0, .reload fun _ => ""])).PublishedAcked :=
  published_acked _ (by decide +kernel)

/-- A request creates a record with a value that nobody acknowledged. -/
theorem published_not_acked_request :
    ¬ (run System.step {} [.saveRecord "home" ""
      (homeRequest ++ [("publishedIpv4", .str "1.2.3.4")])]).PublishedAcked := by
  decide +kernel

end

end LabProbe.Ddns
