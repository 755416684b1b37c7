import LabProbe.Ddns.Identity

/-!
# What the background worker finds due

`_auto_due` repeats the conditions of `run_update` on the addresses of a
record. Over texts without white space around them, which is how every
record holds them, both decide the same: the worker starts exactly the
updates that have an address to hand over, and sleeps until the first delay
ends that alone holds one back.
-/

namespace LabProbe.Ddns

open Py Py.Json Runs

-- ---------------------------------------------------------------------------
-- The worker
-- ---------------------------------------------------------------------------

/-- The conditions of `_auto_due` before the retry delay. -/
def Record.publishable (r : Record) (now : Nat) (f : Family) : Bool :=
  let detected := strip (r.detected.get f)
  let published := strip (r.published f.type)
  let tracker := r.stability.get f.type
  f.type ∈ r.recordTypes &&
    !(r.state.get f != .public || detected = "" || detected = published ||
      tracker.stableCount < 2 || tracker.authError || !addressIsFresh r now)

/-- The earlier of two times, the first of which may be missing. -/
def earlier (next : Option Nat) (retryAt : Nat) : Option Nat :=
  match next with
  | none => some retryAt
  | some n => if retryAt < n then some retryAt else some n

def Record.scanAddress (r : Record) (now : Nat) (found : Bool × Option Nat) (f : Family) :
    Bool × Option Nat :=
  if r.publishable now f then
    let retryAt := (r.stability.get f.type).nextRetryAt
    if retryAt ≤ now then (true, found.2) else (found.1, earlier found.2 retryAt)
  else found

def scanRecord (now : Nat) (found : List String × Option Nat) (r : Record) :
    List String × Option Nat :=
  if r.enabled then
    let scanned := families.foldl (r.scanAddress now) (false, found.2)
    (if scanned.1 then found.1 ++ [strip r.id] else found.1, scanned.2)
  else found

def Store.autoDue (s : Store) (now : Nat) : List String × Option Nat :=
  let found := s.records.foldl (scanRecord now) ([], none)
  (found.1.filter (· != ""), found.2)

-- ---------------------------------------------------------------------------
-- What an update would do
-- ---------------------------------------------------------------------------

def Store.HandsAddress (s : Store) (now : Nat) (id : String) : Prop :=
  ∃ begun run, s.beginUpdate now id false = .ok (begun, .inr run) ∧
    ∃ f value, (Family.type f, value) ∈ run.work

def Record.lifted (r : Record) (f : Family) : Record :=
  { r with stability := r.stability.set f.type { r.stability.get f.type with nextRetryAt := 0 } }

def Record.hands (r : Record) (now : Nat) (f : Family) : Bool :=
  decide (f.type ∈ r.recordTypes) && (r.plan now false f.type).isOk

/-- The address would be handed over if it were not for its retry delay. -/
def Record.backedOff (r : Record) (now : Nat) (f : Family) : Bool :=
  r.enabled && !r.hands now f && (r.lifted f).hands now f

/-- The ends of the delays that alone hold an address of the record back. -/
def Record.delays (r : Record) (now : Nat) : List Nat :=
  (families.filter (r.backedOff now)).map fun f => (r.stability.get f.type).nextRetryAt

/-- The worker starts the updates that hand an address over, and sleeps until
the first delay ends. -/
def Store.Schedules (s : Store) (now : Nat) : Prop :=
  (∀ id, id ∈ (s.autoDue now).1 ↔
    (∃ r ∈ s.records, r.id = id ∧ r.enabled = true) ∧ s.HandsAddress now id) ∧
  (s.autoDue now).2 = (s.records.flatMap (Record.delays · now)).min?

-- ---------------------------------------------------------------------------
-- One address
-- ---------------------------------------------------------------------------

theorem hands_iff {r : Record} {now : Nat} {f : Family} :
    r.hands now f = true ↔ f.type ∈ r.recordTypes ∧ r.awaits f = true ∧
      addressIsFresh r now = true ∧ 2 ≤ (r.stability.get f.type).stableCount ∧
        (r.stability.get f.type).authError = false ∧
          (r.stability.get f.type).nextRetryAt ≤ now := by
  have hplan : r.plan now false f.type = r.planAddress now false f := by cases f <;> rfl
  unfold Record.hands
  rw [hplan, Bool.and_eq_true, decide_eq_true_iff]
  refine and_congr_right fun _ => ?_
  unfold Record.planAddress Record.handOver
  cases hawaits : r.awaits f with
  | false => simp [Except.isOk, Except.toBool]
  | true =>
    cases hfresh : addressIsFresh r now with
    | false => simp [Except.isOk, Except.toBool]
    | true =>
      by_cases hstable : (r.stability.get f.type).stableCount < 2
      · have hfew : ¬2 ≤ (r.stability.get f.type).stableCount := by omega
        simp [hstable, hfew, Except.isOk, Except.toBool]
      · have henough : 2 ≤ (r.stability.get f.type).stableCount := by omega
        cases hauth : (r.stability.get f.type).authError with
        | true => simp [hstable, hauth, Except.isOk, Except.toBool]
        | false =>
          by_cases hretry : now < (r.stability.get f.type).nextRetryAt
          · simp [hstable, hauth, hretry, Except.isOk, Except.toBool]
          · simp [hstable, hauth, hretry, henough, Nat.le_of_not_lt hretry, Except.isOk,
              Except.toBool]

/-- The conditions of the worker, over texts without white space around them. -/
theorem publishable_iff {r : Record} (h : r.Trimmed) {now : Nat} {f : Family} :
    r.publishable now f = true ↔ f.type ∈ r.recordTypes ∧ r.awaits f = true ∧
      addressIsFresh r now = true ∧ 2 ≤ (r.stability.get f.type).stableCount ∧
        (r.stability.get f.type).authError = false := by
  unfold Record.publishable
  rw [h.detected, h.published]
  simp only [Bool.and_eq_true, decide_eq_true_iff, awaits_iff]
  refine and_congr_right fun _ => ?_
  simp [and_assoc]
  tauto

theorem lifted_hands_iff {r : Record} {now : Nat} {f : Family} :
    (r.lifted f).hands now f = true ↔ f.type ∈ r.recordTypes ∧ r.awaits f = true ∧
      addressIsFresh r now = true ∧ 2 ≤ (r.stability.get f.type).stableCount ∧
        (r.stability.get f.type).authError = false := by
  have hawaits : (r.lifted f).awaits f = r.awaits f := by cases f <;> rfl
  have hfresh : addressIsFresh (r.lifted f) now = addressIsFresh r now := rfl
  have htracker : (r.lifted f).stability.get f.type =
      { r.stability.get f.type with nextRetryAt := 0 } := by simp [Record.lifted]
  rw [hands_iff, hawaits, hfresh, htracker]
  simp [Record.lifted]

theorem scanAddress_eq {r : Record} (h : r.Trimmed) (henabled : r.enabled = true) (now : Nat)
    (found : Bool × Option Nat) (f : Family) : r.scanAddress now found f =
      (found.1 || r.hands now f,
        if r.backedOff now f then earlier found.2 (r.stability.get f.type).nextRetryAt
        else found.2) := by
  unfold Record.scanAddress Record.backedOff
  by_cases hp : r.publishable now f = true
  · have hconds := (publishable_iff h).mp hp
    have hlifted : (r.lifted f).hands now f = true := lifted_hands_iff.mpr hconds
    obtain ⟨htype, hawaits, hfresh, hstable, hauth⟩ := hconds
    by_cases hretry : (r.stability.get f.type).nextRetryAt ≤ now
    · have hhands : r.hands now f = true :=
        hands_iff.mpr ⟨htype, hawaits, hfresh, hstable, hauth, hretry⟩
      simp [hp, hretry, hhands]
    · have hhands : r.hands now f = false :=
        Bool.eq_false_iff.mpr fun hh => hretry (hands_iff.mp hh).2.2.2.2.2
      simp [hp, hretry, hhands, hlifted, henabled]
  · have hlifted : (r.lifted f).hands now f = false :=
      Bool.eq_false_iff.mpr fun hh => hp ((publishable_iff h).mpr (lifted_hands_iff.mp hh))
    have hhands : r.hands now f = false := by
      refine Bool.eq_false_iff.mpr fun hh => hp ((publishable_iff h).mpr ?_)
      obtain ⟨htype, hawaits, hfresh, hstable, hauth, -⟩ := hands_iff.mp hh
      exact ⟨htype, hawaits, hfresh, hstable, hauth⟩
    simp [hp, hlifted, hhands]

-- ---------------------------------------------------------------------------
-- All addresses
-- ---------------------------------------------------------------------------

theorem scanAddresses_eq {r : Record} (h : r.Trimmed) (henabled : r.enabled = true) (now : Nat)
    (fs : List Family) (found : Bool × Option Nat) : fs.foldl (r.scanAddress now) found =
      (found.1 || fs.any (r.hands now), ((fs.filter (r.backedOff now)).map fun f =>
        (r.stability.get f.type).nextRetryAt).foldl earlier found.2) := by
  induction fs generalizing found with
  | nil => simp
  | cons f fs ih =>
    rw [List.foldl_cons, scanAddress_eq h henabled, ih]
    by_cases hoff : r.backedOff now f = true
    · simp [hoff, Bool.or_assoc]
    · simp [hoff, Bool.or_assoc]

theorem scanRecord_eq {r : Record} (h : r.Trimmed) (hid : IsNewId r.id) (now : Nat)
    (found : List String × Option Nat) : scanRecord now found r =
      (if r.enabled && families.any (r.hands now) then found.1 ++ [r.id] else found.1,
        (r.delays now).foldl earlier found.2) := by
  unfold scanRecord Record.delays
  cases henabled : r.enabled with
  | false =>
    have hoff : families.filter (r.backedOff now) = [] := by simp [Record.backedOff, henabled]
    simp [hoff]
  | true =>
    simp only [if_true, Bool.true_and]
    rw [scanAddresses_eq h henabled, hid.2, Bool.false_or]

theorem scanRecords_eq {records : List Record} (h : ∀ r ∈ records, r.Trimmed ∧ IsNewId r.id)
    (now : Nat) (found : List String × Option Nat) : records.foldl (scanRecord now) found =
      (found.1 ++ (records.filter fun r => r.enabled && families.any (r.hands now)).map Record.id,
        (records.flatMap (Record.delays · now)).foldl earlier found.2) := by
  induction records generalizing found with
  | nil => simp
  | cons r records ih =>
    obtain ⟨hr, hrecords⟩ := List.forall_mem_cons.mp h
    rw [List.foldl_cons, scanRecord_eq hr.1 hr.2, ih hrecords, List.filter_cons]
    by_cases hdue : (r.enabled && families.any (r.hands now)) = true
    · simp [hdue]
    · simp [hdue]

theorem foldl_earlier (l : List Nat) : l.foldl earlier none = l.min? := by
  cases l with
  | nil => rfl
  | cons a l =>
    suffices h : ∀ a, l.foldl earlier (some a) = some (l.foldl min a) from h a
    induction l with
    | nil => exact fun a => rfl
    | cons b l ih =>
      intro a
      have hstep : earlier (some a) b = some (min a b) := by
        unfold earlier
        dsimp only
        split_ifs <;> simp <;> omega
      rw [List.foldl_cons, hstep, ih, List.foldl_cons]

-- ---------------------------------------------------------------------------
-- An update of a record
-- ---------------------------------------------------------------------------

theorem work_iff {r : Record} {now : Nat} : (∃ f value, (Family.type f, value) ∈ r.work now false) ↔
    families.any (r.hands now) = true := by
  simp only [mem_work, Record.updateTypes, List.mem_filter, decide_eq_true_iff, List.any_eq_true,
    Record.hands, Bool.and_eq_true]
  constructor
  · rintro ⟨f, value, ⟨-, htype⟩, hplan⟩
    exact ⟨f, mem_families f, htype, by rw [hplan]; rfl⟩
  · rintro ⟨f, -, htype, hplan⟩
    cases hp : r.plan now false f.type with
    | error result => simp [hp, Except.isOk, Except.toBool] at hplan
    | ok value => exact ⟨f, value, ⟨mem_recordTypes _, htype⟩, hp⟩

theorem find?_of_identified {s : Store} (h : s.Identified) {r : Record} (hr : r ∈ s.records) :
    s.records.find? (·.id == r.id) = some r := by
  rw [← List.head?_filter, h.2 r hr]
  rfl

theorem handsAddress_iff {s : Store} (h : s.Identified) {r : Record} (hr : r ∈ s.records)
    (now : Nat) : s.HandsAddress now r.id ↔
      (r.enabled && families.any (r.hands now)) = true := by
  unfold Store.HandsAddress Store.beginUpdate
  rw [find?_of_identified h hr, Bool.and_eq_true, ← work_iff]
  dsimp only
  cases r.enabled with
  | false => simp
  | true =>
    cases hwork : (r.work now false).isEmpty with
    | true =>
      rw [List.isEmpty_iff] at hwork
      simp [hwork]
    | false => simp

theorem schedules_of {s : Store} (h : ∀ r ∈ s.records, r.Trimmed ∧ IsNewId r.id)
    (hids : s.Identified) (now : Nat) : s.Schedules now := by
  unfold Store.Schedules Store.autoDue
  rw [scanRecords_eq h]
  dsimp only
  refine ⟨fun id => ?_, foldl_earlier _⟩
  rw [List.nil_append, List.mem_filter, List.mem_map]
  constructor
  · rintro ⟨⟨r, hdue, rfl⟩, -⟩
    obtain ⟨hr, hdue⟩ := List.mem_filter.mp hdue
    have henabled : r.enabled = true := (Bool.and_eq_true_iff.mp hdue).1
    exact ⟨⟨r, hr, rfl, henabled⟩, (handsAddress_iff hids hr now).mpr hdue⟩
  · rintro ⟨⟨r, hr, rfl, -⟩, hhands⟩
    have hdue := (handsAddress_iff hids hr now).mp hhands
    exact ⟨⟨r, List.mem_filter.mpr ⟨hr, hdue⟩, rfl⟩, by simpa using (h r hr).2.1⟩

-- ---------------------------------------------------------------------------
-- Every reachable store
-- ---------------------------------------------------------------------------

section
variable [Unicode]

/-- In every store that is reached, the worker and the updates agree while
the identifiers are distinct. -/
theorem auto_due_agrees (newIds : Nat → String) (hnew : ∀ i, IsNewId (newIds i))
    (raw : Option Json) (secrets : List (String × List (String × String))) (es : List Event)
    (hes : ∀ e ∈ es, e.NewIds) (now : Nat)
    (hids : (run System.step (System.loaded newIds raw secrets) es).store.ids.Nodup) :
    (run System.step (System.loaded newIds raw secrets) es).store.Schedules now := by
  have hstart : Tidy (System.loaded newIds raw secrets) :=
    ⟨fun _ hr => loaded_tidy hnew hr, fun _ ha => normalAddress_trimmed ha⟩
  have hrun := run_invariant_of hes hstart fun _ _ he h => h.step he
  exact schedules_of hrun.records (identified_iff.mpr hids) now

end

section
local instance scheduleUnicode : Unicode := .ascii

/-- A record whose address was reported twice. -/
def homeReported : List Event :=
  [.saveRecord "home" "" homeRequest, homeReport "1.2.3.4" 100, homeReport "1.2.3.4" 101]

theorem auto_due_agrees_home :
    (run System.step (System.loaded (fun _ => "3f2a") none []) homeReported).store.Schedules 101 ∧
    (run System.step (System.loaded (fun _ => "3f2a") none []) homeReported).store.autoDue 101 =
      (["home"], none) := by
  refine ⟨auto_due_agrees _ (fun _ => by decide) _ _ _ (fun e he => ?_) _ (by decide +kernel),
    by decide +kernel⟩
  simp only [homeReported, List.mem_cons, List.not_mem_nil, or_false] at he
  rcases he with rfl | rfl | rfl
  · exact (by decide : IsNewId "home")
  · trivial
  · trivial

end

end LabProbe.Ddns
