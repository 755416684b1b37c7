import LabProbe.Lib.Run
import LabProbe.Storage.Diff

/-!
# The document store and its revision log

`SQLiteStore.save`, `_prune_revisions`, `initialize` and `changes_since` of
`labprobe_storage`. A save is one transaction: it replaces the document,
appends its change rows under the next revision numbers and prunes; where it
raises, nothing of it remains. The numbers come from an `AUTOINCREMENT`
column, so `sequence` only grows, whatever is pruned.

Clock readings are inputs and may be anything: the local wall clock, once
for every row and once for the age test, and the monotonic clock. Paths,
checkpoints and the other pragmas change neither table and are left out.
-/

namespace LabProbe.Storage

open Py Py.Json

structure Revision where
  revision : Nat
  entity : Entity
  operation : Operation
  entityKey : String
  payload : Json
  createdAt : Int
  deriving DecidableEq

/-- `REVISION_MAX_ROWS`, `REVISION_MAX_AGE_DAYS` and `REVISION_PRUNE_INTERVAL_SEC`
with the minima `_env_int` enforces. -/
structure Retention where
  maxRows : Nat
  maxAgeDays : Nat
  pruneInterval : Nat
  maxRows_min : 500 ≤ maxRows
  maxAgeDays_min : 1 ≤ maxAgeDays
  pruneInterval_min : 30 ≤ pruneInterval

def Retention.default : Retention where
  maxRows := 1500
  maxAgeDays := 2
  pruneInterval := 300
  maxRows_min := by decide
  maxAgeDays_min := by decide
  pruneInterval_min := by decide

/-- The clock readings of one call, in seconds. -/
structure Clock where
  stamp : Nat → Int
  wall : Int
  monotonic : Int

structure Store where
  documents : List (String × Json) := []
  revisions : List Revision := []
  sequence : Nat := 0
  lastPruneAt : Int := 0

/-- `load(path, None)`. -/
def Store.document (s : Store) (key : String) : Json := get s.documents key

/-- `current_revision`: the greatest surviving number, 0 for an empty table. -/
def currentRevision (rows : List Revision) : Nat := (rows.getLast?.map Revision.revision).getD 0

def oldestRevision (rows : List Revision) : Nat := (rows.head?.map Revision.revision).getD 0

/-- Rows as inserted: numbered from the sequence on, stamped one by one. -/
def number (sequence : Nat) (clock : Clock) (rows : List ChangeRow) : List Revision :=
  rows.zipIdx.map fun (row, i) =>
    ⟨sequence + i + 1, row.entity, row.operation, row.key, row.payload.sort, clock.stamp i⟩

variable (keep : Retention)

-- ---------------------------------------------------------------------------
-- Pruning
-- ---------------------------------------------------------------------------

/-- The age test, read at the wall clock of the call. -/
def isYoung (wall : Int) (row : Revision) : Bool := wall - keep.maxAgeDays * 86400 ≤ row.createdAt

def youngRows (wall : Int) (rows : List Revision) : List Revision :=
  rows.filter (isYoung keep wall)

def cappedRows (rows : List Revision) : List Revision :=
  match rows.reverse[keep.maxRows - 1]? with
  | some cutoff => rows.filter fun row => cutoff.revision ≤ row.revision
  | none => rows

def pruneDue (s : Store) (clock : Clock) (force : Bool) : Bool :=
  force || keep.pruneInterval ≤ clock.monotonic - s.lastPruneAt

/-- `_prune_revisions`. -/
def prune (s : Store) (clock : Clock) (force : Bool) : Store :=
  if pruneDue keep s clock force then
    { s with revisions := cappedRows keep (youngRows keep clock.wall s.revisions)
             lastPruneAt := clock.monotonic }
  else s

-- ---------------------------------------------------------------------------
-- Saving and opening
-- ---------------------------------------------------------------------------

/-- The table after an insertion, before the pruning of the same transaction. -/
def insertRows (s : Store) (rows : List Revision) : Store :=
  { s with revisions := s.revisions ++ rows, sequence := s.sequence + rows.length }

def baselineRow : ChangeRow := ⟨.system, .baseline, "database", .null⟩

def openRows (s : Store) (clock : Clock) : List Revision :=
  if currentRevision s.revisions = 0 then number s.sequence clock [baselineRow] else []

/-- `initialize` on a database that exists or was just created empty; the
new process has not pruned yet. -/
def openStore (s : Store) (clock : Clock) : Store :=
  prune keep { insertRows s (openRows s clock) with lastPruneAt := 0 } clock true

variable [Unicode]

/-- The rows a save inserts: none for an unchanged text, and `none` where
`save` raises. -/
def saveRows (s : Store) (key : String) (value : Json) (clock : Clock) : Option (List Revision) :=
  if Dict.get? s.documents key = some value.sort then some []
  else (changesForDocument key (s.document key) value).map (number s.sequence clock)

/-- `save`, with the revision it returns; `none` where it raises and rolls back. -/
def save (s : Store) (key : String) (value : Json) (clock : Clock) : Option (Nat × Store) :=
  if Dict.get? s.documents key = some value.sort then some (currentRevision s.revisions, s)
  else do
    let rows ← saveRows s key value clock
    let s := prune keep
      { insertRows s rows with documents := Dict.set s.documents key value.sort } clock false
    some (currentRevision s.revisions, s)

-- ---------------------------------------------------------------------------
-- Histories
-- ---------------------------------------------------------------------------

/-- What happens to the database: a save of a JSON value, or a restart. -/
inductive Event where
  | save (key : String) (value : Value) (clock : Clock)
  | restart (clock : Clock)

/-- The database with every row it ever committed. -/
structure History where
  store : Store
  committed : List Revision := []

/-- The rows an event commits. -/
def Event.rows (s : Store) : Event → List Revision
  | .save key value clock => (saveRows s key value clock).getD []
  | .restart clock => openRows s clock

def Event.apply (s : Store) : Event → Store
  | .save key value clock => ((Storage.save keep s key value clock).map Prod.snd).getD s
  | .restart clock => openStore keep s clock

def History.step (h : History) (e : Event) : History :=
  ⟨e.apply keep h.store, h.committed ++ e.rows h.store⟩

/-- `_migrate_json_once`: the documents of a new database, without change rows. -/
def migrate (files : List (String × Value)) : Store :=
  { documents := Dict.ofEntries (files.map fun e => (e.1, e.2.val.sort)) }

/-- A database just created from the old files, before it is opened. -/
def History.created (files : List (String × Value)) : History := ⟨migrate files, []⟩

-- ---------------------------------------------------------------------------
-- Reading the log
-- ---------------------------------------------------------------------------

/-- The answer of `changes_since`, where `sequence` repeats `revision`; a
demand for a full sync names no next revision. -/
structure Answer where
  oldestRevision : Nat
  revision : Nat
  fromRevision : Int
  nextRevision : Option Int
  fullRequired : Bool
  hasMore : Bool
  changes : List Revision

/-- `max(1, min(int(limit), 1000))`. -/
def pageSize (limit : Int) : Nat := (max 1 (min limit 1000)).toNat

omit [Unicode] in
def changesSince (rows : List Revision) (since limit : Int) : Answer :=
  let oldest := oldestRevision rows
  let current := currentRevision rows
  if since < 0 ∨ (0 < oldest ∧ since < (oldest : Int) - 1) ∨ (current : Int) < since then
    { oldestRevision := oldest, revision := current, fromRevision := since, nextRevision := none
      fullRequired := true, hasMore := false, changes := [] }
  else
    let found := rows.filter fun row => since < row.revision
    let changes := found.take (pageSize limit)
    { oldestRevision := oldest, revision := current, fromRevision := since
      nextRevision := (changes.getLast?.map fun row => (row.revision : Int)).getD since |> some
      fullRequired := false, hasMore := decide (pageSize limit < found.length), changes := changes }

end LabProbe.Storage
