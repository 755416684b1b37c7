import LabProbe.Lib.Confirm
import LabProbe.Ddns.System

/-!
# Two samples before an address is handed over

The trackers count the samples of an address by their times; a sample with
the time of the one before it replaces the detected address without being
counted. While such samples bring nothing else than the candidate, what an
update hands over was seen in two samples.
-/

namespace LabProbe.Ddns

open Py Py.Json Runs Confirm

/-- The sample reports the value in state public. -/
def Shows (f : Family) (value : String) (a : Address) : Prop :=
  a.state.get f = .public ∧ a.detected.get f = value

def Allows (f : Family) (value : String) (a : Address) : Prop :=
  a.detected.get f = value ∨ a.detected.get f = ""

instance (f : Family) (value : String) : DecidablePred (Shows f value) :=
  fun _ => inferInstanceAs (Decidable (_ ∧ _))

/-- Two samples of different times show the value, with no other between. -/
def TwiceShown (samples : List Address) (f : Family) (value : String) : Prop :=
  Confirmed (Shows f value) (Allows f value) Address.detectedAt samples

/-- What a call hands over as an address was shown by two samples. -/
def System.HandsConfirmed (s : System) : Event → Prop
  | .call i _ => ∀ flight ∈ s.flights[i]?, ∀ f value,
    flight.run.next? = some (f.type, value) → TwiceShown s.samples f value
  | _ => True

theorem System.HandsConfirmed.count {s : System} (h : s.HandsConfirmed (.call i response)) :
    ∀ flight ∈ s.flights[i]?, ∀ f ∈ families, ∀ next ∈ flight.run.next?, next.1 = f.type →
      2 ≤ s.samples.countP (Shows f next.2) := by
  intro flight hflight f _ next hnext htype
  have hhanded : flight.run.next? = some (f.type, next.2) := by rw [hnext, ← htype]
  exact (h flight hflight f next.2 hhanded).count

-- ---------------------------------------------------------------------------
-- When it holds
-- ---------------------------------------------------------------------------

def Record.tracker (r : Record) (f : Family) : Tracker := r.stability.get f.type

section
variable [Unicode]

/-- A sample that is not counted brings no other address than the candidates,
and a new record has counted nothing. -/
def System.KeepsCandidates (s : System) : Event → Prop
  | .acceptAddress now value => ∀ a ∈ s.store.sample now value, s.store.sampleChanged a = false →
    ∀ r ∈ s.store.records, ∀ f ∈ families,
      (r.tracker f).candidate ≠ "" → a.detected.get f = (r.tracker f).candidate ∨ a.detected.get f = ""
  | .saveRecord newId recordId value => recordId = "" →
    ∀ r ∈ (readRequest newId value).toOption, ∀ f ∈ families,
      (r.tracker f).candidate = "" ∧ (r.tracker f).stableCount = 0
  | _ => True

instance (s : System) (e : Event) : Decidable (s.KeepsCandidates e) := by
  unfold System.KeepsCandidates
  exact match e with
    | .acceptAddress .. | .saveRecord .. | .deleteRecord .. | .saveCredentials .. |
      .beginUpdate .. | .call .. | .finishUpdate .. | .reload .. => inferInstance

-- ---------------------------------------------------------------------------
-- The trackers
-- ---------------------------------------------------------------------------

omit [Unicode] in
theorem trackers_get (r : Record) (f : Family) : r.trackers.get f.type =
    (r.tracker f).observe (f.type ∈ r.recordTypes) (r.awaits f)
      (r.detected.get f) (r.published f.type) := by
  cases f <;> simp [Record.trackers, families, Family.type, Record.tracker]

omit [Unicode] in
/-- A tracker counts what it counted, or nothing. -/
def Tracker.Keeps (t t' : Tracker) : Prop :=
  (t'.candidate = t.candidate ∧ t'.stableCount = t.stableCount) ∨
    (t'.candidate = "" ∧ t'.stableCount = 0)

omit [Unicode] in
theorem Tracker.Keeps.trans {t t' t'' : Tracker} (h : t.Keeps t') (h' : t'.Keeps t'') :
    t.Keeps t'' := by
  rcases h' with ⟨hc, hn⟩ | h'
  · rcases h with ⟨hc', hn'⟩ | ⟨hc', hn'⟩
    · exact .inl ⟨hc.trans hc', hn.trans hn'⟩
    · exact .inr ⟨hc.trans hc', hn.trans hn'⟩
  · exact .inr h'

omit [Unicode] in
theorem settle_tracker (now : Nat) (credentials : List (String × String)) (r : Record)
    (e : RecordType × Result) (f : Family) :
    (r.tracker f).Keeps ((r.settle now credentials e).tracker f) := by
  unfold Record.settle Record.tracker
  split
  · simp only [Record.publish, PerType.get_set]
    split
    · exact .inr ⟨rfl, rfl⟩
    · exact .inl ⟨rfl, rfl⟩
  · split
    · exact .inl ⟨rfl, rfl⟩
    · simp only [Record.fail, PerType.get_set]
      split
      · rename_i ht
        rw [ht]
        exact .inl ⟨rfl, rfl⟩
      · exact .inl ⟨rfl, rfl⟩

omit [Unicode] in
theorem finish_tracker (now : Nat) (run : Run) (r : Record) (f : Family) :
    (r.tracker f).Keeps ((r.finish now run).tracker f) := by
  suffices h : ∀ (results : List (RecordType × Result)) (r : Record),
      (r.tracker f).Keeps ((results.foldl (Record.settle now run.credentials) r).tracker f) from
    h run.results r
  intro results
  induction results with
  | nil => exact fun _ => .inl ⟨rfl, rfl⟩
  | cons e results ih => exact fun r => (settle_tracker _ _ r e f).trans (ih _)

-- ---------------------------------------------------------------------------
-- The invariant
-- ---------------------------------------------------------------------------

omit [Unicode] in
/-- The tracker of a family, its record's detected address and the samples
agree. -/
structure Counts (last : Option Address) (samples : List Address) (f : Family) (detected : String)
    (t : Tracker) : Prop where
  idle : t.candidate = "" → t.stableCount = 0
  current : t.candidate ≠ "" → detected = t.candidate ∨ detected = ""
  once : t.stableCount = 1 → ∃ a, last = some a ∧
    Seen (Shows f t.candidate) (Allows f t.candidate) Address.detectedAt samples a.detectedAt
  twice : 2 ≤ t.stableCount → TwiceShown samples f t.candidate

omit [Unicode] in
theorem Counts.none {t : Tracker} (hc : t.candidate = "") (hn : t.stableCount = 0) :
    Counts last samples f detected t where
  idle _ := hn
  current h := absurd hc h
  once h := by omega
  twice h := by omega

omit [Unicode] in
theorem Counts.keeps {t t' : Tracker} (h : Counts last samples f detected t) (hk : t.Keeps t') :
    Counts last samples f detected t' := by
  rcases hk with ⟨hc, hn⟩ | ⟨hc, hn⟩
  · obtain ⟨idle, current, once, twice⟩ := h
    rw [← hc] at idle current once twice
    rw [← hn] at idle once twice
    exact ⟨idle, current, once, twice⟩
  · exact .none hc hn

omit [Unicode] in
theorem Counts.same {t : Tracker} {a b : Address} (h : Counts (some b) samples f detected t)
    (htime : b.detectedAt = a.detectedAt)
    (hallows : t.candidate ≠ "" → Allows f t.candidate a) :
    Counts (some a) (samples ++ [a]) f (a.detected.get f) t where
  idle := h.idle
  current := hallows
  once hn := by
    obtain ⟨b', hb, hseen⟩ := h.once hn
    cases hb
    have hc : t.candidate ≠ "" := fun hc => by simp [h.idle hc] at hn
    exact ⟨a, rfl, htime ▸ hseen.append (hallows hc)⟩
  twice hn := (h.twice hn).append _

omit [Unicode] in
theorem Counts.observe {t : Tracker} {a : Address} (h : Counts last samples f detected t)
    (htime : ∀ b, last = some b → b.detectedAt ≠ a.detectedAt) (tracked awaited : Bool)
    (published : String)
    (hawaited : awaited = true → a.state.get f = .public ∧ a.detected.get f ≠ "") :
    Counts (some a) (samples ++ [a]) f (a.detected.get f)
      (t.observe tracked awaited (a.detected.get f) published) := by
  unfold Tracker.observe
  split
  · exact .none rfl rfl
  · split
    · rename_i hw
      obtain ⟨hpublic, hne⟩ := hawaited hw
      have hlast : Seen (Shows f (a.detected.get f)) (Allows f (a.detected.get f))
          Address.detectedAt (samples ++ [a]) a.detectedAt := seen_last ⟨hpublic, rfl⟩
      split
      · rename_i hc
        refine ⟨fun hempty => absurd (hc.symm.trans hempty) hne, fun _ => .inl hc.symm, ?_, ?_⟩
        · intro _
          rw [hc]
          exact ⟨a, rfl, hlast⟩
        · intro hn
          have hcount : t.stableCount = 1 ∨ 2 ≤ t.stableCount := by
            simp only at hn
            omega
          rcases hcount with hone | htwo
          · obtain ⟨b, hb, hseen⟩ := h.once hone
            exact hseen.confirm ⟨hpublic, hc.symm⟩ (htime b hb)
          · exact (h.twice htwo).append _
      · exact ⟨fun hempty => absurd hempty hne, fun _ => .inl rfl, fun _ => ⟨a, rfl, hlast⟩,
          fun hn => by simp at hn⟩
    · split <;> exact .none rfl rfl

omit [Unicode] in
structure Gated (s : System) : Prop where
  records : ∀ r ∈ s.store.records, ∀ f,
    Counts s.store.address s.samples f (r.detected.get f) (r.tracker f)
  flights : ∀ flight ∈ s.flights, ∀ f value, (f.type, value) ∈ flight.run.work →
    TwiceShown s.samples f value

-- ---------------------------------------------------------------------------
-- One step
-- ---------------------------------------------------------------------------

omit [Unicode] in
theorem handOver_ok {r : Record} (h : r.handOver now force t value = .ok v) : v = value := by
  unfold Record.handOver at h
  dsimp only at h
  split at h
  · simp at h
  · split at h
    · simp at h
    · exact (Except.ok.inj h).symm

omit [Unicode] in
theorem plan_address {r : Record} {f : Family} (h : r.plan now force f.type = .ok value) :
    value = r.detected.get f ∧ value ≠ "" ∧ 2 ≤ (r.tracker f).stableCount := by
  have hplan : r.planAddress now force f = .ok value := by cases f <;> exact h
  unfold Record.planAddress at hplan
  split at hplan
  · rename_i hawaits
    obtain ⟨-, hne, -⟩ := awaits_iff.mp hawaits
    split at hplan
    · simp at hplan
    · split at hplan
      · simp at hplan
      · rename_i hcount
        obtain rfl := handOver_ok hplan
        exact ⟨rfl, hne, Nat.le_of_not_lt hcount⟩
  · simp at hplan

omit [Unicode] in
theorem Counts.handOver {r : Record} {f : Family}
    (h : Counts last samples f (r.detected.get f) (r.tracker f))
    (hplan : r.plan now force f.type = .ok value) : TwiceShown samples f value := by
  obtain ⟨rfl, hne, htwo⟩ := plan_address hplan
  have hc : (r.tracker f).candidate ≠ "" := fun hc => by simp [h.idle hc] at htwo
  rcases h.current hc with heq | hempty
  · rw [heq]
    exact h.twice htwo
  · exact absurd hempty hne

omit [Unicode] in
theorem sampleChanged_iff (s : Store) (a : Address) :
    s.sampleChanged a = false ↔ ∃ b, s.address = some b ∧ b.detectedAt = a.detectedAt := by
  simp [Store.sampleChanged]

theorem Gated.sampled {s : System} (h : Gated s)
    (hk : s.KeepsCandidates (.acceptAddress now value))
    (hsample : s.store.sample now value = some a) {r : Record} (hr : r ∈ s.store.records)
    (f : Family) :
    Counts (some a) (s.samples ++ [a])
      f ((r.acceptAddress (s.store.sampleChanged a) a).1.detected.get f)
      ((r.acceptAddress (s.store.sampleChanged a) a).1.tracker f) := by
  have hcounts := h.records r hr f
  cases hchanged : s.store.sampleChanged a with
  | false =>
    obtain ⟨b, hb, htime⟩ := (sampleChanged_iff _ _).mp hchanged
    rw [hb] at hcounts
    exact hcounts.same htime (hk a hsample hchanged r hr f (mem_families f))
  | true =>
    have htracker : ((r.acceptAddress true a).1.tracker f) = (r.tracker f).observe
        (f.type ∈ r.recordTypes) ((r.sample a).awaits f) (a.detected.get f)
        ((r.sample a).published f.type) := trackers_get (r.sample a) f
    rw [htracker]
    refine hcounts.observe ?_ _ _ _ ?_
    · intro b hb htime
      have hsame := (sampleChanged_iff s.store a).mpr ⟨b, hb, htime⟩
      simp [hchanged] at hsame
    · intro hawaits
      obtain ⟨hpublic, hne, -⟩ := awaits_iff.mp hawaits
      exact ⟨hpublic, hne⟩

theorem Gated.yields {s : System} (h : Gated s) {e : Event} (hk : s.KeepsCandidates e)
    (hsample : s.sample e = none) (he : e.isReload = false) (hr : s.Yields e r') (f : Family) :
    Counts s.store.address s.samples f (r'.detected.get f) (r'.tracker f) := by
  cases hr with
  | kept hr => exact h.records r' hr f
  | sampled hr hsome => exact absurd (hsome.symm.trans hsample) (by simp)
  | created hread =>
    obtain ⟨hc, hn⟩ := hk rfl _ (congrArg Except.toOption hread) f (mem_families f)
    exact .none hc hn
  | edited hread hid hold => exact h.records _ (List.mem_of_find?_eq_some hold) f
  | marked hr => exact h.records _ hr f
  | @finished i flight r now hflight hdone hr =>
    obtain ⟨_, _, _, _, _, _, hframe⟩ := finish_frame now flight.run r
    have hdetected : (r.finish now flight.run).detected = r.detected := by rw [hframe]
    rw [hdetected]
    exact (h.records r (List.mem_of_find?_eq_some hr) f).keeps (finish_tracker now flight.run r f)
  | loaded => simp [Event.isReload] at he

theorem loaded_gated (newIds : Nat → String) (raw : Option Json)
    (secrets : List (String × List (String × String))) (acks : List Ack) :
    Gated { store := load newIds raw secrets, acks := acks } where
  records r hr f := by
    obtain ⟨item, -, hload⟩ := List.mem_filterMap.mp hr
    obtain ⟨r, -, rfl⟩ := Option.map_eq_some_iff.mp hload
    have htracker : (r.restarted.tracker f) =
        { r.stability.get f.type with candidate := "", stableCount := 0 } := PerType.get_of _ _
    exact .none (by rw [htracker]) (by rw [htracker])
  flights _ h := nomatch h

theorem Gated.step {s : System} (h : Gated s) {e : Event} (hk : s.KeepsCandidates e) :
    Gated (s.step e) := by
  cases he : e.isReload with
  | true =>
    cases e <;> simp only [Event.isReload, Bool.false_eq_true] at he
    exact loaded_gated _ _ _ _
  | false =>
    have hsamples := step_samples (s := s) he
    have haddress := step_address (s := s) he
    refine ⟨fun r hr f => ?_, fun flight hflight f value hwork => ?_⟩
    · rw [hsamples, haddress]
      have hyields := yields_of_mem hr
      cases hsample : s.sample e with
      | none =>
        rw [Option.none_or, Option.toList_none, List.append_nil]
        exact h.yields hk hsample he hyields f
      | some a =>
        rw [Option.some_or, Option.toList_some]
        cases hyields with
        | kept hr hnone => exact absurd (hnone.symm.trans hsample) (by simp)
        | sampled hold hsome =>
          obtain rfl := Option.some.inj (hsome.symm.trans hsample)
          exact h.sampled hk hsome hold f
        | _ => simp [System.sample] at hsample
    · rw [hsamples]
      refine Confirmed.append ?_ _
      cases flies_of_mem hflight with
      | kept hflight => exact h.flights flight hflight f value hwork
      | @called i flight hi response =>
        have hsame := (flight.run.call_work response).1
        exact h.flights flight (List.mem_of_getElem? hi) f value (hsame ▸ hwork)
      | begun hbegin =>
        obtain ⟨r, hr, hrun, -⟩ := beginUpdate_run hbegin
        rw [hrun] at hwork
        exact (h.records r hr f).handOver (mem_work.mp hwork).2

/-- In the runs whose uncounted samples bring nothing else and whose new
records have counted nothing, every address a call hands over was shown by
two samples. -/
theorem address_confirmed (newIds : Nat → String) (raw : Option Json)
    (secrets : List (String × List (String × String))) (es : List Event)
    (hk : Along System.step System.KeepsCandidates (System.loaded newIds raw secrets) es) :
    Along System.step System.HandsConfirmed (System.loaded newIds raw secrets) es := by
  refine hk.mono (loaded_gated newIds raw secrets []) (fun _ _ h hk => h.step hk) ?_
  intro s e h _
  cases e with
  | call i response =>
    intro flight hi f value hnext
    exact h.flights flight (List.mem_of_getElem? hi) f value (List.mem_of_getElem? hnext)
  | _ => exact trivial

end

section
local instance asciiStability : Unicode := .ascii

/-- A record, and three reports of which the last has the time of the second. -/
def officeReports (second third : String) : List Event :=
  [.saveRecord "office" "" [("provider", .str "dynv6"), ("hostname", .str "office.example"),
      ("recordTypes", .str "A")],
    officeReport "1.2.3.4" 100, officeReport second 101, officeReport third 101,
    .beginUpdate 101 "office" false, .call 0 (some { ok := true })]
where
  officeReport (ip : String) (detectedAt : Nat) : Event :=
    .acceptAddress detectedAt (.dict [("detectedIpv4", .str ip), ("ipv4State", .str "public"),
      ("detectedAt", .int detectedAt)])

theorem address_confirmed_office :
    Along System.step System.HandsConfirmed (System.loaded (fun _ => "") none [])
      (officeReports "1.2.3.4" "1.2.3.4") :=
  address_confirmed _ _ _ _ (by decide +kernel)

/-- The third report has the time of the second, and its address is handed
over after one sample. -/
theorem address_unconfirmed_office :
    ¬ Along System.step System.HandsConfirmed (System.loaded (fun _ => "") none [])
      (officeReports "1.2.3.4" "5.6.7.8") := by
  rintro ⟨-, -, -, -, -, hcall, -⟩
  exact absurd hcall.count (by decide +kernel)

end

end LabProbe.Ddns
