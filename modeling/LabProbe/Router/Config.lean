import LabProbe.Lib.Dict
import LabProbe.Py.Json

/-!
# Configuration snapshots of the router

`RouterConfigSync`: the last value the Hub holds of each resource, under a
revision that every change raises. A value arrives from the background
refresh or as the read-back of a command, and is compared with the snapshot
by a digest of what is configuration in it. Saving the snapshots is left out.
-/

namespace LabProbe.Router

open Py Py.Json

inductive Resource where
  | firewall | ddns | upnp | portMappings
  deriving DecidableEq, Repr

def resourceByCacheKey : List (String × Resource) :=
  [("firewall", .firewall), ("ddns", .ddns), ("upnp", .upnp), ("native-portmap", .portMappings)]

inductive Source where
  | sync | command
  deriving DecidableEq, Repr

-- ---------------------------------------------------------------------------
-- What is compared
-- ---------------------------------------------------------------------------

def runtimeKeys : List String := ["updatedAt", "checkedAt", "receivedAt", "receivedEpoch"]

def withoutStats : Json → Json
  | .dict row => .dict (Dict.erase row "stats")
  | row => row

def comparisonValue (resource : Resource) : Json → Json
  | .dict d =>
    let result := d.filter fun e => !runtimeKeys.contains e.1
    match resource, get result "list" with
    | .firewall, .list rows => .dict (Dict.set result "list" (.list (rows.map withoutStats)))
    | _, _ => .dict result
  | value => value

-- ---------------------------------------------------------------------------
-- The store
-- ---------------------------------------------------------------------------

/-- A snapshot, and the frame that carries it; `δ` are the digests. -/
structure Row (δ : Type) where
  revision : Nat
  updatedAt : Nat
  checkedAt : Nat
  source : Source
  digest : δ
  data : Json
  deriving DecidableEq

structure ConfigSync (δ : Type) where
  rows : List (Resource × Row δ) := []
  revision : Nat := 0

section
variable {δ : Type} [DecidableEq δ] (hash : Json → δ)

def digestOf (resource : Resource) (value : Json) : δ := hash (comparisonValue resource value).sort

/-- `_load`, of the rows and the revision of the stored document. -/
def ConfigSync.load (revision : Nat) (rows : List (Resource × Row δ)) : ConfigSync δ where
  rows := rows
  revision := rows.foldr (fun e n => max e.2.revision n) revision

/-- `accept`: the store, and the frame it publishes. A value the store holds
is published again as the confirmation of a command. -/
def ConfigSync.accept (c : ConfigSync δ) (now : Nat) (resource : Resource) (data : Json)
    (source : Source) : ConfigSync δ × Option (Row δ) :=
  match (Dict.get? c.rows resource).filter fun row => row.digest == digestOf hash resource data with
  | some previous =>
    (c, if source = .command then some { previous with source := source, checkedAt := now } else none)
  | none =>
    let row : Row δ :=
      { revision := c.revision + 1
        updatedAt := now
        checkedAt := now
        source := source
        digest := digestOf hash resource data
        data := data }
    ({ rows := Dict.set c.rows resource row, revision := c.revision + 1 }, some row)

variable {c : ConfigSync δ} {now : Nat} {resource : Resource} {data : Json} {source : Source}

theorem accept_cases (c : ConfigSync δ) (now : Nat) (resource : Resource) (data : Json)
    (source : Source) :
    ((c.accept hash now resource data source).1 = c ∧
      ∃ previous, Dict.get? c.rows resource = some previous ∧
        previous.digest = digestOf hash resource data) ∨
    ∃ row : Row δ, row.revision = c.revision + 1 ∧ row.data = data ∧
      c.accept hash now resource data source =
        ({ rows := Dict.set c.rows resource row, revision := c.revision + 1 }, some row) := by
  unfold ConfigSync.accept
  cases hheld : (Dict.get? c.rows resource).filter fun row =>
      row.digest == digestOf hash resource data with
  | some previous =>
    obtain ⟨hget, hdigest⟩ := Option.filter_eq_some_iff.mp hheld
    exact .inl ⟨rfl, previous, hget, beq_iff_eq.mp hdigest⟩
  | none => exact .inr ⟨_, rfl, rfl, rfl⟩

def Numbered (c : ConfigSync δ) : Prop := ∀ e ∈ c.rows, e.2.revision ≤ c.revision

omit [DecidableEq δ] in
theorem load_numbered (revision : Nat) (rows : List (Resource × Row δ)) :
    Numbered (ConfigSync.load revision rows) := by
  unfold Numbered ConfigSync.load
  induction rows with
  | nil => exact fun e he => absurd he List.not_mem_nil
  | cons row rows ih =>
    intro e he
    rcases List.mem_cons.mp he with rfl | he
    · exact le_max_left _ _
    · exact (ih e he).trans (le_max_right _ _)

theorem Numbered.accept (h : Numbered c) :
    Numbered (c.accept hash now resource data source).1 := by
  rcases accept_cases hash c now resource data source with ⟨hsame, -⟩ | ⟨row, hrow, -, heq⟩
  · rw [hsame]
    exact h
  · rw [heq]
    intro e he
    rcases Dict.mem_set he with rfl | he
    · exact hrow.le
    · exact (h e he).trans (Nat.le_succ _)

end

end LabProbe.Router
