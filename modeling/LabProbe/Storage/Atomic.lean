import LabProbe.Lib.Transaction
import LabProbe.Storage.Changes

/-!
# `save`, statement by statement

`SQLiteStore.save` sends one statement after the other to the database, any
of which may fail. What follows the `COMMIT` stands under the same handler as
what precedes it: a checkpoint or a reading of the revision that fails makes
`save` raise with everything already written.
-/

namespace LabProbe.Storage

open Py Py.Json Transactions Transactions.Prog

/-- What is in the database; the sequence is a table of SQLite's own. -/
structure Tables where
  documents : List (String × Json) := []
  revisions : List Revision := []
  sequence : Nat := 0
  deriving DecidableEq

def Store.tables (s : Store) : Tables := ⟨s.documents, s.revisions, s.sequence⟩

/-- The statements of `save` by the places they stand at. -/
inductive Statement where
  | begin | selectDocument | commitUnchanged | revisionUnchanged | upsertDocument
  | insertRevision (i : Nat)
  | deleteOld | selectCutoff | deleteBeyond
  | commit | checkpoint | revision | rollback
  deriving DecidableEq

/-- The times the object keeps in memory. -/
structure Process where
  lastPruneAt : Int := 0
  lastCheckpointAt : Int := 0

/-- A call of `save`, with the clock readings it takes: those up to the
`COMMIT`, and the monotonic clock after it. -/
structure Save where
  key : String
  value : Json
  clock : Clock
  committedAt : Int

section
variable (keep : Retention) (checkpointInterval : Nat)

-- ---------------------------------------------------------------------------
-- The program
-- ---------------------------------------------------------------------------

def Tables.insertRow (t : Tables) (row : ChangeRow) (createdAt : Int) : Tables where
  documents := t.documents
  revisions := t.revisions ++
    [⟨t.sequence + 1, row.entity, row.operation, row.key, row.payload.sort, createdAt⟩]
  sequence := t.sequence + 1

def insertRevisions (clock : Clock) : List (ChangeRow × Nat) → Prog Statement Tables Unit
  | [] => pure ()
  | (row, i) :: rows => do
    write (.insertRevision i) fun t => t.insertRow row (clock.stamp i)
    insertRevisions clock rows

def deleteBeyond : Option Revision → Prog Statement Tables Unit
  | some cutoff => write .deleteBeyond fun t =>
      { t with revisions := t.revisions.filter fun row => cutoff.revision ≤ row.revision }
  | none => pure ()

def pruneRevisions (lastPruneAt : Int) (clock : Clock) : Prog Statement Tables Unit := do
  if keep.pruneInterval ≤ clock.monotonic - lastPruneAt then
    write .deleteOld fun t => { t with revisions := youngRows keep clock.wall t.revisions }
    deleteBeyond (← query .selectCutoff fun t => t.revisions.reverse[keep.maxRows - 1]?)
  else pure ()

def Save.checkpointDue (call : Save) (p : Process) : Bool :=
  checkpointInterval ≤ call.committedAt - p.lastCheckpointAt

variable [Unicode]

/-- What is written between the comparison of the texts and the `COMMIT`. -/
def Save.writes (call : Save) (p : Process) (old : Json) : Prog Statement Tables Unit := do
  write .upsertDocument fun t =>
    { t with documents := Dict.set t.documents call.key call.value.sort }
  let rows ← ofOption (changesForDocument call.key old call.value)
  insertRevisions call.clock rows.zipIdx
  pruneRevisions keep p.lastPruneAt call.clock

def Save.checkpoint (call : Save) (p : Process) : Prog Statement Tables Unit :=
  if call.checkpointDue checkpointInterval p then query .checkpoint fun _ => () else pure ()

/-- What follows the `COMMIT`. -/
def Save.finish (call : Save) (p : Process) : Prog Statement Tables Nat := do
  call.checkpoint checkpointInterval p
  query .revision fun t => currentRevision t.revisions

/-- What stands in the `try` block. -/
def Save.body (call : Save) (p : Process) : Prog Statement Tables Nat := do
  let row ← query .selectDocument fun t => Dict.get? t.documents call.key
  if row = some call.value.sort then
    commit .commitUnchanged
    query .revisionUnchanged fun t => currentRevision t.revisions
  else
    call.writes keep p (row.getD .null)
    commit .commit
    call.finish checkpointInterval p

/-- `save`, with the revision it returns. -/
def Save.run (call : Save) (p : Process) : Prog Statement Tables Nat := do
  start .begin
  guarded (call.body keep checkpointInterval p) (rollback .rollback)

-- ---------------------------------------------------------------------------
-- The statements before the commit
-- ---------------------------------------------------------------------------

def Tables.insertRows (t : Tables) (clock : Clock) (rows : List (ChangeRow × Nat)) : Tables :=
  rows.foldl (fun t e => t.insertRow e.1 (clock.stamp e.2)) t

omit [Unicode] in
theorem insertRevisions_does (clock : Clock) (rows : List (ChangeRow × Nat)) :
    Does (insertRevisions clock rows) (fun _ => rows.map fun e => .insertRevision e.2)
      fun t => some ((), t.insertRows clock rows) := by
  induction rows with
  | nil => exact .pure ()
  | cons e rows ih => exact (Does.write _ _).bind fun _ => ih

def Tables.prune (t : Tables) (lastPruneAt : Int) (clock : Clock) : Tables :=
  if keep.pruneInterval ≤ clock.monotonic - lastPruneAt then
    { t with revisions := cappedRows keep (youngRows keep clock.wall t.revisions) }
  else t

def Tables.pruneStatements (t : Tables) (lastPruneAt : Int) (clock : Clock) : List Statement :=
  if keep.pruneInterval ≤ clock.monotonic - lastPruneAt then
    [.deleteOld, .selectCutoff] ++
      if ((youngRows keep clock.wall t.revisions).reverse[keep.maxRows - 1]?).isSome then
        [.deleteBeyond] else []
  else []

omit [Unicode] in
theorem cappedRows_elim (rows : List Revision) : cappedRows keep rows =
    (rows.reverse[keep.maxRows - 1]?).elim rows fun cutoff =>
      rows.filter fun row => cutoff.revision ≤ row.revision := by
  unfold cappedRows
  cases rows.reverse[keep.maxRows - 1]? <;> rfl

omit [Unicode] in
theorem pruneRevisions_does (lastPruneAt : Int) (clock : Clock) :
    Does (pruneRevisions keep lastPruneAt clock)
      (fun t => t.pruneStatements keep lastPruneAt clock)
      fun t => some ((), t.prune keep lastPruneAt clock) := by
  unfold pruneRevisions Tables.pruneStatements Tables.prune
  split
  · have hbeyond : ∀ cutoff : Option Revision, Does (deleteBeyond cutoff)
        (fun _ => if cutoff.isSome then [.deleteBeyond] else [])
        fun t => some ((), Tables.mk t.documents (cutoff.elim t.revisions fun last =>
          t.revisions.filter fun row => last.revision ≤ row.revision) t.sequence) := by
      intro cutoff
      cases cutoff with
      | none => exact .pure ()
      | some last => exact .write _ _
    simp only [cappedRows_elim]
    exact (Does.write _ _).bind fun _ => (Does.query _ _).bind hbeyond
  · exact .pure ()

def Save.inserted (call : Save) (rows : List ChangeRow) (t : Tables) : Tables :=
  ({ t with documents := Dict.set t.documents call.key call.value.sort } : Tables).insertRows
    call.clock rows.zipIdx

/-- The tables `save` commits; `none` where the comparison of the documents
raises. -/
def Save.written (call : Save) (p : Process) (old : Json) (t : Tables) : Option Tables :=
  (changesForDocument call.key old call.value).map fun rows =>
    (call.inserted rows t).prune keep p.lastPruneAt call.clock

def Save.writeStatements (call : Save) (p : Process) (old : Json) (t : Tables) : List Statement :=
  .upsertDocument :: ((changesForDocument call.key old call.value).map fun rows =>
    (rows.zipIdx.map fun e => .insertRevision e.2) ++
      (call.inserted rows t).pruneStatements keep p.lastPruneAt call.clock).getD []

theorem writes_does (call : Save) (p : Process) (old : Json) :
    Does (call.writes keep p old) (call.writeStatements keep p old)
      fun t => (call.written keep p old t).map fun t' => ((), t') := by
  have hwrites := (Does.write (ν := Statement) .upsertDocument fun t : Tables =>
    { t with documents := Dict.set t.documents call.key call.value.sort }).bind fun _ =>
      (Does.ofOption (changesForDocument call.key old call.value)).bind fun rows =>
        (insertRevisions_does call.clock rows.zipIdx).bind fun _ =>
          pruneRevisions_does keep p.lastPruneAt call.clock
  unfold Save.writes Save.writeStatements Save.written
  cases hchanges : changesForDocument call.key old call.value with
  | none =>
    rw [hchanges] at hwrites
    exact hwrites
  | some rows =>
    rw [hchanges] at hwrites
    exact hwrites

omit [Unicode] in
theorem finish_spec (call : Save) (p : Process) (replies : Statement → Reply) (t : Tables) :
    (call.finish checkpointInterval p replies ⟨t, none⟩).2.disk = t ∧
      ((call.finish checkpointInterval p replies ⟨t, none⟩).1 = none ↔
        ¬ ((call.checkpointDue checkpointInterval p = true → replies .checkpoint = .done) ∧
          replies .revision = .done)) := by
  have hrevision : (call.finish checkpointInterval p replies ⟨t, none⟩ =
      query .revision (fun t => currentRevision t.revisions) replies ⟨t, none⟩ ∧
        (call.checkpointDue checkpointInterval p = true → replies .checkpoint = .done)) ∨
      (Raises (call.finish checkpointInterval p) replies ⟨t, none⟩ t ∧
        ¬ (call.checkpointDue checkpointInterval p = true → replies .checkpoint = .done)) := by
    unfold Save.finish
    cases hdue : call.checkpointDue checkpointInterval p with
    | false =>
      have hnone : call.checkpoint checkpointInterval p = pure () := by
        rw [Save.checkpoint, hdue, if_neg Bool.false_ne_true]
      rw [hnone]
      exact .inl ⟨bind_some rfl, by simp⟩
    | true =>
      rw [Save.checkpoint, if_pos hdue]
      by_cases hreply : replies .checkpoint = .done
      · exact .inl ⟨bind_some (query_done hreply), fun _ => hreply⟩
      · exact .inr ⟨(query_raises hreply).bind, by simpa using hreply⟩
  obtain ⟨hrun, hcheckpoint⟩ | ⟨hraises, hcheckpoint⟩ := hrevision
  · rw [hrun]
    by_cases hreply : replies .revision = .done
    · rw [query_done hreply]
      exact ⟨rfl, iff_of_false (by simp) (not_not_intro ⟨hcheckpoint, hreply⟩)⟩
    · obtain ⟨hnone, hdisk⟩ : Raises (query .revision fun t : Tables => currentRevision t.revisions)
          replies ⟨t, none⟩ t := query_raises hreply
      exact ⟨hdisk, iff_of_true hnone fun hboth => hreply hboth.2⟩
  · exact ⟨hraises.2, iff_of_true hraises.1 fun hboth => hcheckpoint hboth.1⟩

-- ---------------------------------------------------------------------------
-- The whole of it
-- ---------------------------------------------------------------------------

/-- The document as `save` finds it. -/
def Tables.old (t : Tables) (key : String) : Json := (Dict.get? t.documents key).getD .null

theorem body_unchanged (call : Save) (p : Process) (replies : Statement → Reply) (t : Tables)
    (h : Dict.get? t.documents call.key = some call.value.sort) :
    (call.body keep checkpointInterval p replies ⟨t, some t⟩).2.disk = t := by
  by_cases hselect : replies .selectDocument = .done
  · have hbody : call.body keep checkpointInterval p replies ⟨t, some t⟩ = (do
        commit .commitUnchanged
        query .revisionUnchanged fun t => currentRevision t.revisions : Prog Statement Tables Nat)
          replies ⟨t, some t⟩ :=
      (bind_some (query_done hselect)).trans (congrFun (congrFun (if_pos h) replies) _)
    rw [hbody]
    by_cases hcommit : replies .commitUnchanged = .done
    · rw [bind_some (commit_done hcommit)]
      by_cases hread : replies .revisionUnchanged = .done
      · rw [query_done hread]
      · exact (query_raises hread).2
    · exact (commit_raises hcommit).bind.2
  · exact (query_raises hselect).bind.2

/-- A changed text: all statements up to the `COMMIT` succeed and the tables
are written, or it raises with the tables as before. -/
theorem body_changed (call : Save) (p : Process) (replies : Statement → Reply) (t : Tables)
    (h : Dict.get? t.documents call.key ≠ some call.value.sort) :
    ((∀ st ∈ .selectDocument :: call.writeStatements keep p (t.old call.key) t ++ [.commit],
      replies st = .done) ∧ ∃ t', call.written keep p (t.old call.key) t = some t' ∧
        call.body keep checkpointInterval p replies ⟨t, some t⟩ =
          call.finish checkpointInterval p replies ⟨t', none⟩) ∨
    ((¬ (∀ st ∈ .selectDocument :: call.writeStatements keep p (t.old call.key) t ++ [.commit],
        replies st = .done) ∨ call.written keep p (t.old call.key) t = none) ∧
      Raises (call.body keep checkpointInterval p) replies ⟨t, some t⟩ t) := by
  have hall : (∀ st ∈ .selectDocument :: call.writeStatements keep p (t.old call.key) t ++ [.commit],
      replies st = .done) ↔ replies .selectDocument = .done ∧
        (∀ st ∈ call.writeStatements keep p (t.old call.key) t, replies st = .done) ∧
          replies .commit = .done := by
    rw [List.cons_append, List.forall_mem_cons, List.forall_mem_append, List.forall_mem_singleton]
  rw [hall]
  by_cases hselect : replies .selectDocument = .done
  · have hbody : call.body keep checkpointInterval p replies ⟨t, some t⟩ = (do
        call.writes keep p (t.old call.key)
        commit .commit
        call.finish checkpointInterval p : Prog Statement Tables Nat) replies ⟨t, some t⟩ :=
      (bind_some (query_done hselect)).trans (congrFun (congrFun (if_neg h) replies) _)
    have hwrites := writes_does keep call p (t.old call.key)
    unfold Raises
    rw [hbody]
    by_cases hdone : ∀ st ∈ call.writeStatements keep p (t.old call.key) t, replies st = .done
    · cases hwritten : call.written keep p (t.old call.key) t with
      | none =>
        refine .inr ⟨.inr rfl, ?_⟩
        exact (hwrites.raises replies t t (.inr (by rw [hwritten]; rfl))).bind
      | some t' =>
        have hrun := hwrites.returns replies t t () t' hdone (by rw [hwritten]; rfl)
        rw [bind_some hrun]
        by_cases hcommit : replies .commit = .done
        · exact .inl ⟨⟨hselect, hdone, hcommit⟩, t', rfl, bind_some (commit_done hcommit)⟩
        · exact .inr ⟨.inl fun hboth => hcommit hboth.2.2, (commit_raises hcommit).bind⟩
    · exact .inr ⟨.inl fun hboth => hdone hboth.2.1, (hwrites.raises replies t t (.inl hdone)).bind⟩
  · exact .inr ⟨.inl fun hboth => hselect hboth.1, (query_raises hselect).bind⟩

-- ---------------------------------------------------------------------------
-- Where nothing fails
-- ---------------------------------------------------------------------------

omit [Unicode] in
theorem insertRows_zipIdx (t : Tables) (clock : Clock) (rows : List ChangeRow) :
    t.insertRows clock rows.zipIdx = { documents := t.documents
                                       revisions := t.revisions ++ number t.sequence clock rows
                                       sequence := t.sequence + rows.length } := by
  suffices h : ∀ (k base : Nat) (t : Tables), t.sequence = base + k →
      t.insertRows clock (rows.zipIdx k) =
        { documents := t.documents
          revisions := t.revisions ++ (rows.zipIdx k).map fun e =>
            ⟨base + e.2 + 1, e.1.entity, e.1.operation, e.1.key, e.1.payload.sort, clock.stamp e.2⟩
          sequence := base + k + rows.length } from
    h 0 t.sequence t rfl
  induction rows with
  | nil =>
    intro k base t ht
    simp [Tables.insertRows, ht.symm]
  | cons row rows ih =>
    intro k base t ht
    have hrest := ih (k + 1) base (t.insertRow row (clock.stamp k)) (by simp [Tables.insertRow, ht]; omega)
    simp only [List.zipIdx_cons, Tables.insertRows, List.foldl_cons] at hrest ⊢
    rw [hrest]
    simp only [Tables.insertRow, List.map_cons, List.append_assoc, List.singleton_append, ht,
      List.length_cons, Tables.mk.injEq, true_and]
    omega

theorem written_eq (call : Save) (p : Process) (s : Store) (hp : p.lastPruneAt = s.lastPruneAt)
    (h : Dict.get? s.documents call.key ≠ some call.value.sort) :
    (Storage.save keep s call.key call.value call.clock).map (fun e => e.2.tables) =
      call.written keep p (s.document call.key) s.tables := by
  unfold Storage.save saveRows Save.written
  rw [if_neg h, if_neg h]
  cases changesForDocument call.key (s.document call.key) call.value with
  | none => rfl
  | some rows =>
    have hrows := insertRows_zipIdx
      { s.tables with documents := Dict.set s.documents call.key call.value.sort } call.clock rows
    simp only [Option.map_some, Option.bind_eq_bind, Option.bind_some, Option.some.injEq,
      Save.inserted]
    have hlength : (number s.sequence call.clock rows).length = rows.length := length_number rows
    unfold Tables.prune prune pruneDue
    rw [hp]
    by_cases hdue : keep.pruneInterval ≤ call.clock.monotonic - s.lastPruneAt
    · rw [if_pos hdue, if_pos (by rw [Bool.false_or]; exact decide_eq_true hdue)]
      simp only [Store.tables, Storage.insertRows, hlength] at hrows ⊢
      rw [hrows]
    · rw [if_neg hdue, if_neg (by rw [Bool.false_or]; exact fun hd => hdue (of_decide_eq_true hd))]
      simp only [Store.tables, Storage.insertRows, hlength] at hrows ⊢
      rw [hrows]

theorem run_eq_save (call : Save) (p : Process) (s : Store) (hp : p.lastPruneAt = s.lastPruneAt)
    (replies : Statement → Reply) (hdone : ∀ st, replies st = .done) :
    (call.run keep checkpointInterval p replies ⟨s.tables, none⟩).1 =
        (Storage.save keep s call.key call.value call.clock).map Prod.fst ∧
      (call.run keep checkpointInterval p replies ⟨s.tables, none⟩).2.disk =
        ((Storage.save keep s call.key call.value call.clock).map fun e => e.2.tables).getD
          s.tables := by
  have hrun : call.run keep checkpointInterval p replies ⟨s.tables, none⟩ = guarded
      (call.body keep checkpointInterval p) (rollback .rollback) replies ⟨s.tables, some s.tables⟩ :=
    bind_some (start_done (hdone _))
  obtain ⟨hresult, hdisk⟩ := guarded_rollback (call.body keep checkpointInterval p)
    Statement.rollback replies ⟨s.tables, some s.tables⟩
  rw [hrun, hresult, hdisk]
  by_cases h : Dict.get? s.documents call.key = some call.value.sort
  · have hbody : call.body keep checkpointInterval p replies ⟨s.tables, some s.tables⟩ =
        (some (currentRevision s.revisions), ⟨s.tables, none⟩) :=
      (bind_some (query_done (hdone _))).trans ((congrFun (congrFun (if_pos h) replies) _).trans
        ((bind_some (commit_done (hdone _))).trans (query_done (hdone _))))
    rw [hbody, Storage.save, if_pos h]
    exact ⟨rfl, rfl⟩
  · have hwritten := written_eq keep call p s hp h
    obtain ⟨-, t', hsome, hbody⟩ | ⟨hfail, hraises⟩ :=
      body_changed keep checkpointInterval call p replies s.tables h
    · have hsaved := hwritten.trans hsome
      obtain ⟨⟨n, s'⟩, hsave, rfl⟩ := Option.map_eq_some_iff.mp hsaved
      have hfinish : call.finish checkpointInterval p replies ⟨s'.tables, none⟩ =
          (some (currentRevision s'.revisions), ⟨s'.tables, none⟩) := by
        unfold Save.finish Save.checkpoint
        split
        · exact (bind_some (query_done (hdone _))).trans (query_done (hdone _))
        · exact (bind_some rfl).trans (query_done (hdone _))
      have hrevision : n = currentRevision s'.revisions := by
        unfold Storage.save at hsave
        rw [if_neg h] at hsave
        obtain ⟨rows, -, hrows⟩ := Option.bind_eq_some_iff.mp hsave
        cases hrows
        rfl
      rw [hbody, hfinish, hsave, hrevision]
      exact ⟨rfl, rfl⟩
    · have hnone := hwritten.trans (hfail.resolve_left fun hsome => hsome fun st _ => hdone st)
      rw [Option.map_eq_none_iff.mp hnone]
      exact hraises

-- ---------------------------------------------------------------------------
-- When it is atomic
-- ---------------------------------------------------------------------------

/-- Where the text changes and all statements up to the `COMMIT` succeed, those
after it do. -/
def Save.Finishes (call : Save) (p : Process) (replies : Statement → Reply) (t : Tables) : Prop :=
  Dict.get? t.documents call.key ≠ some call.value.sort →
    (call.written keep p (t.old call.key) t).isSome = true →
    (∀ st ∈ [.begin, .selectDocument] ++ call.writeStatements keep p (t.old call.key) t ++ [.commit],
      replies st = .done) →
    (call.checkpointDue checkpointInterval p = true → replies .checkpoint = .done) ∧
      replies .revision = .done

omit [Unicode] in
theorem insertRows_documents (t : Tables) (clock : Clock) (rows : List (ChangeRow × Nat)) :
    (t.insertRows clock rows).documents = t.documents := by
  induction rows generalizing t with
  | nil => rfl
  | cons e rows ih => exact ih (t.insertRow e.1 (clock.stamp e.2))

theorem written_documents {call : Save} {p : Process} {old : Json} {t t' : Tables}
    (h : call.written keep p old t = some t') :
    t'.documents = Dict.set t.documents call.key call.value.sort := by
  obtain ⟨rows, -, rfl⟩ := Option.map_eq_some_iff.mp h
  unfold Tables.prune
  split <;> exact insertRows_documents _ _ _

/-- Whichever statements fail, `save` leaves the tables as before where it
raises, if and only if those after its `COMMIT` do not fail. -/
theorem save_atomic_iff (call : Save) (p : Process) (replies : Statement → Reply) (t : Tables) :
    ((call.run keep checkpointInterval p replies ⟨t, none⟩).1 = none →
        (call.run keep checkpointInterval p replies ⟨t, none⟩).2.disk = t) ↔
      call.Finishes keep checkpointInterval p replies t := by
  unfold Save.Finishes
  by_cases hbegin : replies .begin = .done
  · have hrun : call.run keep checkpointInterval p replies ⟨t, none⟩ =
        guarded (call.body keep checkpointInterval p) (rollback .rollback) replies ⟨t, some t⟩ :=
      bind_some (start_done hbegin)
    obtain ⟨hresult, hdisk⟩ := guarded_rollback (call.body keep checkpointInterval p)
      Statement.rollback replies ⟨t, some t⟩
    rw [hrun, hresult, hdisk]
    by_cases h : Dict.get? t.documents call.key = some call.value.sort
    · exact iff_of_true (fun _ => body_unchanged keep checkpointInterval call p replies t h)
        fun hne => absurd h hne
    · have hstatements : (∀ st ∈ [.begin, .selectDocument] ++
          call.writeStatements keep p (t.old call.key) t ++ [.commit], replies st = .done) ↔
          ∀ st ∈ .selectDocument :: call.writeStatements keep p (t.old call.key) t ++ [.commit],
            replies st = .done := by
        rw [List.cons_append, List.cons_append, List.forall_mem_cons]
        exact and_iff_right hbegin
      rw [hstatements]
      obtain ⟨hall, t', hwritten, hbody⟩ | ⟨hnone, hraises⟩ :=
        body_changed keep checkpointInterval call p replies t h
      · obtain ⟨hfinish, hfails⟩ := finish_spec checkpointInterval call p replies t'
        have hne : t' ≠ t := by
          intro heq
          have hdocuments := written_documents keep hwritten
          rw [heq] at hdocuments
          exact h (Dict.set_eq_self_iff.mp hdocuments.symm)
        rw [hbody, hfinish, hfails]
        constructor
        · exact fun hkeeps _ _ _ => Classical.byContradiction fun hno => hne (hkeeps hno)
        · exact fun hfinishes hno => absurd (hfinishes h (by rw [hwritten]; rfl) hall) hno
      · refine iff_of_true (fun _ => hraises.2) fun _ hsome hall => ?_
        rcases hnone with hfail | hnone
        · exact absurd hall hfail
        · simp [hnone] at hsome
  · refine iff_of_true (fun _ => (start_raises hbegin).bind.2) fun _ _ hall => ?_
    exact absurd (hall .begin (by simp)) hbegin

end

section
local instance atomicUnicode : Unicode := .ascii

def saveDoor : Save where
  key := "doors.json"
  value := .str "open"
  clock := ⟨fun _ => 1000, 1000, 10⟩
  committedAt := 11

/-- Everything is committed when the reading of the revision fails. -/
theorem raised_after_commit :
    (saveDoor.run .default 900 {} (fun st => if st = .revision then .failed false else .done)
        ⟨{}, none⟩).1 = none ∧
      (saveDoor.run .default 900 {} (fun st => if st = .revision then .failed false else .done)
        ⟨{}, none⟩).2.disk.documents = [("doors.json", .str "open")] := by
  decide +kernel

end

end LabProbe.Storage
