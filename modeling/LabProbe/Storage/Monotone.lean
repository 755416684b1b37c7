import LabProbe.Storage.Changes

/-!
# Revisions that fall back

`current_revision` is the greatest number the table still holds. A pruning
that takes the newest row takes its number along, and the reports fall to the
number of an older row, or to 0, until the next commit. The numbers
themselves come from the sequence and are given once.
-/

namespace LabProbe.Storage

open Py Py.Json Logs Runs

-- ---------------------------------------------------------------------------
-- Reports
-- ---------------------------------------------------------------------------

/-- An event of the database, or a pruning by itself. -/
inductive Work where
  | commit (e : Event)
  | prune (clock : Clock) (force : Bool)

/-- The database with every revision it has reported, in order. -/
structure Reports where
  history : History
  reported : List Nat

def Reports.created (files : List (String × Value)) : Reports := ⟨.created files, [0]⟩

def History.revision (h : History) : Nat := currentRevision h.store.revisions

/-- Reports never fall, and no number is given twice. -/
def Reports.Monotone (r : Reports) : Prop :=
  r.reported.Pairwise (· ≤ ·) ∧ (r.history.committed.map Revision.revision).Nodup

section
variable (keep : Retention) [Unicode]

def Work.returned (s : Store) : Work → Option Nat
  | .commit (.save key value clock) => (Storage.save keep s key value clock).map Prod.fst
  | _ => none

def History.work (h : History) : Work → History
  | .commit e => h.step keep e
  | .prune clock force => { h with store := Storage.prune keep h.store clock force }

/-- What a client can read after it: the revision a save returns, and then
`current_revision`. -/
def Reports.step (r : Reports) (w : Work) : Reports where
  history := r.history.work keep w
  reported := r.reported ++ (w.returned keep r.history.store).toList ++
    [(r.history.work keep w).revision]

-- ---------------------------------------------------------------------------
-- The condition
-- ---------------------------------------------------------------------------

def Work.rows (s : Store) : Work → List Revision
  | .commit e => e.rows s
  | .prune _ _ => []

def Work.wall : Work → Int
  | .commit e => e.wall
  | .prune clock _ => clock.wall

def Work.prunes (s : Store) : Work → Bool
  | .commit e => e.prunes keep s
  | .prune clock force => pruneDue keep s clock force

/-- Where it prunes a table with rows, the newest of them or a row inserted
with the pruning passes the age test. -/
def Work.KeepsNewest (h : History) (w : Work) : Prop :=
  w.prunes keep h.store = true → ∀ newest ∈ h.store.revisions.getLast?,
    ∃ row ∈ newest :: w.rows h.store, isYoung keep w.wall row = true

-- ---------------------------------------------------------------------------
-- The greatest number
-- ---------------------------------------------------------------------------

omit [Unicode] in
theorem currentRevision_cap {rows : List Revision} {n : Nat} (hn : 0 < n) :
    currentRevision (cap n rows) = currentRevision rows := by
  unfold currentRevision cap
  rw [List.getLast?_drop]
  split
  · have hnil : rows = [] := List.length_eq_zero_iff.mp (by omega)
    simp [hnil]
  · rfl

omit [Unicode] in
theorem currentRevision_mem {rows : List Revision} (h : 0 < currentRevision rows) :
    ∃ row ∈ rows, row.revision = currentRevision rows := by
  rcases List.eq_nil_or_concat' rows with rfl | ⟨rows, last, rfl⟩
  · simp [currentRevision] at h
  · exact ⟨last, by simp, by simp [currentRevision]⟩

variable {keep} {h : History} {w : Work}

theorem work_revisions (hn : Numbered h) (w : Work) :
    (h.work keep w).store.revisions =
      if w.prunes keep h.store then
        cap keep.maxRows ((h.store.revisions ++ w.rows h.store).filter (isYoung keep w.wall))
      else h.store.revisions ++ w.rows h.store := by
  cases w with
  | commit e => exact step_revisions hn e
  | prune clock force =>
    have hyoung : Ordered Revision.number (youngRows keep clock.wall h.store.revisions) :=
      (hn.ordered.sublist hn.kept).sublist List.filter_sublist
    have hcap := cappedRows_eq keep hyoung
    simp only [youngRows] at hcap
    simp only [History.work, prune_revisions, Work.prunes, Work.rows, Work.wall, List.append_nil,
      youngRows, hcap]

theorem Numbered.work (hn : Numbered h) (w : Work) : Numbered (h.work keep w) := by
  cases w with
  | commit e => exact hn.step
  | prune clock force =>
    refine ⟨hn.ordered, hn.positive, ?_, ?_⟩
    · intro row hrow
      simpa only [History.work, prune_sequence] using hn.bounded row hrow
    · have hrevisions : (h.work keep (.prune clock force)).store.revisions = _ :=
        work_revisions hn _
      simp only [Work.rows, List.append_nil] at hrevisions
      rw [hrevisions]
      split
      · exact ((cap_suffix _ _).sublist.trans List.filter_sublist).trans hn.kept
      · exact hn.kept

/-- One pruning lets the current revision fall exactly when it takes the
newest row and no row inserted with it stays. -/
theorem revision_le_iff (hn : Numbered h) (w : Work) :
    h.revision ≤ (h.work keep w).revision ↔ w.KeepsNewest keep h := by
  have hrows : ∀ row ∈ w.rows h.store, (h.store.sequence : Int) < row.number := by
    cases w with
    | commit e => exact fun row hrow => (rows_mem hrow).1
    | prune clock force => exact fun row hrow => nomatch hrow
  have hall : Ordered Revision.number (h.store.revisions ++ w.rows h.store) := by
    cases w with
    | commit e => exact (hn.append e).1.sublist (hn.append e).2
    | prune clock force =>
      simpa only [Work.rows, List.append_nil] using hn.ordered.sublist hn.kept
  have hmin := keep.maxRows_min
  unfold History.revision Work.KeepsNewest
  rw [work_revisions hn]
  rcases List.eq_nil_or_concat' h.store.revisions with hnil | ⟨older, newest, hlast⟩
  · simp [hnil, currentRevision]
  have hnewest : newest ∈ h.store.revisions := by simp [hlast]
  have hcurrent : currentRevision h.store.revisions = newest.revision := by
    simp [hlast, currentRevision]
  have hbound := hn.bounded newest (hn.kept.subset hnewest)
  have hpos := hn.positive newest (hn.kept.subset hnewest)
  simp only [Revision.number] at hbound hpos
  have hget : h.store.revisions.getLast? = some newest := by simp [hlast]
  rw [hcurrent, hget]
  simp only [Option.mem_some_iff, forall_eq']
  cases w.prunes keep h.store with
  | false =>
    have hge := currentRevision_ge hall (List.mem_append_left (w.rows h.store) hnewest)
    simpa [Revision.number] using hge
  | true =>
    simp only [if_true, forall_true_left]
    rw [currentRevision_cap (by omega)]
    constructor
    · intro hle
      obtain ⟨row, hrow, heq⟩ := currentRevision_mem (Nat.lt_of_lt_of_le (by omega) hle)
      obtain ⟨hmem, hyoung⟩ := List.mem_filter.mp hrow
      refine ⟨row, ?_, hyoung⟩
      rcases List.mem_append.mp hmem with hold | hnew
      · -- an old row that is no lower than the newest is the newest
        have hge := currentRevision_ge (hn.ordered.sublist hn.kept) hold
        rw [hcurrent] at hge
        have hsame : row.number = newest.number := by
          simp only [Revision.number] at hge ⊢
          omega
        exact hn.ordered.inj (hn.kept.subset hold) (hn.kept.subset hnewest) hsame ▸
          List.mem_cons_self
      · exact List.mem_cons_of_mem _ hnew
    · rintro ⟨row, hrow, hyoung⟩
      have hmem : row ∈ h.store.revisions ++ w.rows h.store := by
        rcases List.mem_cons.mp hrow with rfl | hnew
        · exact List.mem_append_left _ hnewest
        · exact List.mem_append_right _ hnew
      have hge := currentRevision_ge (hall.sublist List.filter_sublist)
        (List.mem_filter.mpr ⟨hmem, hyoung⟩)
      have hle : newest.number ≤ row.number := by
        rcases List.mem_cons.mp hrow with rfl | hnew
        · exact Int.le_refl _
        · have := hrows row hnew
          simp only [Revision.number] at this ⊢
          omega
      simp only [Revision.number] at hge hle
      omega

-- ---------------------------------------------------------------------------
-- Runs
-- ---------------------------------------------------------------------------

theorem returned_eq {n : Nat} (hr : w.returned keep h.store = some n) :
    n = (h.work keep w).revision := by
  cases w with
  | prune clock force => simp [Work.returned] at hr
  | commit e =>
    cases e with
    | restart clock => simp [Work.returned] at hr
    | save key value clock =>
      simp only [Work.returned, History.revision, History.work, History.step, Event.apply] at hr ⊢
      cases hsave : Storage.save keep h.store key value clock with
      | none => simp [hsave] at hr
      | some result =>
        obtain ⟨m, store⟩ := result
        obtain rfl : m = n := by simpa [hsave] using hr
        simp only [Storage.save] at hsave
        split at hsave
        · cases hsave
          rfl
        · obtain ⟨rows, -, hresult⟩ := Option.bind_eq_some_iff.mp hsave
          cases hresult
          rfl

/-- What the reports of a run keep: the last is the current revision. -/
structure Reports.Kept (r : Reports) : Prop where
  numbered : Numbered r.history
  sorted : r.reported.Pairwise (· ≤ ·)
  last : r.reported.getLast? = some r.history.revision

omit [Unicode] in
theorem Reports.Kept.le_revision {r : Reports} (hk : r.Kept) :
    ∀ n ∈ r.reported, n ≤ r.history.revision := by
  intro n hn
  obtain ⟨older, hsplit⟩ := List.getLast?_eq_some_iff.mp hk.last
  have hsorted := hk.sorted
  rw [hsplit] at hsorted hn
  rcases List.mem_append.mp hn with hn | hn
  · exact (List.pairwise_append.mp hsorted).2.2 n hn _ (by simp)
  · exact Nat.le_of_eq (List.mem_singleton.mp hn)

theorem Reports.sorted_step_iff {r : Reports} (hk : r.Kept) (w : Work) :
    (r.step keep w).reported.Pairwise (· ≤ ·) ↔
      r.history.revision ≤ (r.history.work keep w).revision := by
  have hnew : ∀ n ∈ (w.returned keep r.history.store).toList ++
      [(r.history.work keep w).revision], n = (r.history.work keep w).revision := by
    intro n hn
    rcases List.mem_append.mp hn with hn | hn
    · exact returned_eq (Option.mem_toList.mp hn)
    · exact List.mem_singleton.mp hn
  have hconst : ((w.returned keep r.history.store).toList ++
      [(r.history.work keep w).revision]).Pairwise (· ≤ ·) := by
    refine List.pairwise_of_forall_mem_list fun a ha b hb => ?_
    rw [hnew a ha, hnew b hb]
  simp only [Reports.step, List.append_assoc]
  constructor
  · intro hsorted
    exact (List.pairwise_append.mp hsorted).2.2 _ (List.mem_of_getLast? hk.last) _ (by simp)
  · intro hle
    refine List.pairwise_append.mpr ⟨hk.sorted, hconst, fun a ha b hb => ?_⟩
    rw [hnew b hb]
    exact Nat.le_trans (hk.le_revision a ha) hle

theorem Reports.Kept.step {r : Reports} (hk : r.Kept) (hw : w.KeepsNewest keep r.history) :
    (r.step keep w).Kept where
  numbered := hk.numbered.work w
  sorted := (Reports.sorted_step_iff hk w).mpr ((revision_le_iff hk.numbered w).mpr hw)
  last := by simp [Reports.step]

omit [Unicode] in
theorem Numbered.nodup (hn : Numbered h) : (h.committed.map Revision.revision).Nodup := by
  rw [List.Nodup, List.pairwise_map]
  refine hn.ordered.imp fun hlt heq => ?_
  simp only [Revision.number] at hlt
  omega

theorem Reports.Kept.monotone_step_iff {r : Reports} (hk : r.Kept) (w : Work) :
    (r.step keep w).Monotone ↔ w.KeepsNewest keep r.history := by
  rw [← revision_le_iff hk.numbered, ← Reports.sorted_step_iff hk]
  exact and_iff_left (hk.numbered.work w).nodup

omit [Unicode] in
theorem Reports.kept_created (files : List (String × Value)) : (Reports.created files).Kept :=
  ⟨numbered_created files, List.pairwise_singleton _ _, rfl⟩

/-- In every state of a run no report has fallen below an earlier one and no
number was given twice, exactly in the runs whose prunings keep the newest
row or one inserted with them. -/
theorem reports_monotone_iff (keep : Retention) (files : List (String × Value))
    (works : List Work) :
    Along (Reports.step keep) (fun r w => (r.step keep w).Monotone) (.created files) works ↔
      Along (Reports.step keep) (fun r w => w.KeepsNewest keep r.history) (.created files) works :=
  along_iff (Reports.kept_created files) (fun _ _ hk hw => hk.step hw)
    fun _ w hk => hk.monotone_step_iff w

end

/-- Three days after the first start a document without revisions is saved:
the pruning takes the only row. -/
def idleWorks : List Work :=
  [.commit (.restart (clockAt 0 0)),
    .commit (.save "device_archive.json" ⟨.str "a", rfl⟩ (clockAt 259200 259200))]

/-- The revision 1 is followed by 0. -/
theorem reports_fall : ¬ (run (@Reports.step .default .ascii) (.created []) idleWorks).Monotone := by
  rintro ⟨hsorted, -⟩
  exact absurd hsorted (by decide)

end LabProbe.Storage
