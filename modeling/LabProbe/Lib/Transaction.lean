/-!
# Programs of statements on a transactional database

A connection has the tables as they are on disk and, in a transaction, a
version of its own, which a commit writes and a rollback drops. Every
statement has a name, and which of them fail is an input; a failing statement
may end the transaction. What is not committed when the connection is closed
is lost.
-/

namespace Transactions

variable {ν τ α β : Type}

/-- What the database says to a statement. -/
inductive Reply where
  | done
  | failed (ends : Bool)
  deriving DecidableEq

structure Conn (τ : Type) where
  disk : τ
  working : Option τ := none

def Prog (ν τ α : Type) : Type := (ν → Reply) → Conn τ → Option α × Conn τ

namespace Prog

instance : Monad (Prog ν τ) where
  pure a := fun _ c => (some a, c)
  bind p q := fun replies c => match p replies c with
    | (some a, c) => q a replies c
    | (none, c) => (none, c)

/-- A computation without statements that may raise. -/
def ofOption (result : Option α) : Prog ν τ α := fun _ c => (result, c)

def statement (name : ν) (act : Conn τ → Option α × Conn τ) : Prog ν τ α := fun replies c =>
  match replies name with
  | .done => act c
  | .failed ends => (none, if ends then { c with working := none } else c)

def query (name : ν) (read : τ → α) : Prog ν τ α :=
  statement name fun c => (some (read (c.working.getD c.disk)), c)

/-- Outside a transaction a statement commits itself. -/
def write (name : ν) (f : τ → τ) : Prog ν τ Unit :=
  statement name fun c => (some (), match c.working with
    | some tables => { c with working := some (f tables) }
    | none => { c with disk := f c.disk })

def start (name : ν) : Prog ν τ Unit :=
  statement name fun c => match c.working with
    | none => (some (), { c with working := some c.disk })
    | some _ => (none, c)

def commit (name : ν) : Prog ν τ Unit :=
  statement name fun c => match c.working with
    | some tables => (some (), ⟨tables, none⟩)
    | none => (none, c)

def rollback (name : ν) : Prog ν τ Unit :=
  statement name fun c => match c.working with
    | some _ => (some (), { c with working := none })
    | none => (none, c)

/-- Where the body raises, the handler runs, and it is raised again. -/
def guarded (body : Prog ν τ α) (handler : Prog ν τ Unit) : Prog ν τ α := fun replies c =>
  match body replies c with
  | (some a, c) => (some a, c)
  | (none, c) => (none, (handler replies c).2)

-- ---------------------------------------------------------------------------
-- One statement after the other
-- ---------------------------------------------------------------------------

section
variable {p : Prog ν τ α} {q : α → Prog ν τ β} {replies : ν → Reply} {c c' : Conn τ} {disk : τ}
  {name : ν} {act : Conn τ → Option α × Conn τ}

def Raises (p : Prog ν τ α) (replies : ν → Reply) (c : Conn τ) (disk : τ) : Prop :=
  (p replies c).1 = none ∧ (p replies c).2.disk = disk

theorem bind_some (h : p replies c = (some a, c')) : (p >>= q) replies c = q a replies c' := by
  simp only [Bind.bind, h]

theorem Raises.bind (h : Raises p replies c disk) : Raises (p >>= q) replies c disk := by
  unfold Raises at h ⊢
  simp only [Bind.bind]
  split
  · rename_i heq
    simp [heq] at h
  · rename_i heq
    simpa [heq] using h

theorem statement_done (h : replies name = .done) : statement name act replies c = act c := by
  simp only [statement, h]

theorem statement_raises (h : replies name ≠ .done) :
    Raises (statement name act) replies c c.disk := by
  unfold Raises statement
  cases hreply : replies name with
  | done => exact absurd hreply h
  | failed ends => cases ends <;> exact ⟨rfl, rfl⟩

theorem query_done {read : τ → α} (h : replies name = .done) :
    query name read replies c = (some (read (c.working.getD c.disk)), c) := statement_done h

theorem query_raises {read : τ → α} (h : replies name ≠ .done) :
    Raises (query name read) replies c c.disk := statement_raises h

theorem start_done (h : replies name = .done) :
    start name replies ⟨disk, none⟩ = (some (), ⟨disk, some disk⟩) := statement_done h

theorem start_raises (h : replies name ≠ .done) : Raises (start name) replies c c.disk :=
  statement_raises h

theorem commit_done {tables : τ} (h : replies name = .done) :
    commit name replies ⟨disk, some tables⟩ = (some (), ⟨tables, none⟩) := statement_done h

theorem commit_raises (h : replies name ≠ .done) : Raises (commit name) replies c c.disk :=
  statement_raises h

end

theorem guarded_rollback (body : Prog ν τ α) (name : ν) (replies : ν → Reply) (c : Conn τ) :
    (guarded body (rollback name) replies c).1 = (body replies c).1 ∧
      (guarded body (rollback name) replies c).2.disk = (body replies c).2.disk := by
  unfold guarded
  rcases hbody : body replies c with ⟨_ | a, disk, working⟩
  · unfold rollback statement
    cases replies name with
    | done => cases working <;> exact ⟨rfl, rfl⟩
    | failed ends => cases ends <;> exact ⟨rfl, rfl⟩
  · exact ⟨rfl, rfl⟩

-- ---------------------------------------------------------------------------
-- Inside a transaction
-- ---------------------------------------------------------------------------

/-- Inside a transaction the program runs the statements `names` and computes
`f`: where one of them fails or `f` raises, it raises. The disk stays as it
is. -/
structure Does (p : Prog ν τ α) (names : τ → List ν) (f : τ → Option (α × τ)) : Prop where
  returns : ∀ replies disk tables a tables', (∀ n ∈ names tables, replies n = .done) →
    f tables = some (a, tables') → p replies ⟨disk, some tables⟩ = (some a, ⟨disk, some tables'⟩)
  raises : ∀ replies disk tables, ¬ (∀ n ∈ names tables, replies n = .done) ∨ f tables = none →
    Raises p replies ⟨disk, some tables⟩ disk

theorem Does.pure (a : α) :
    Does (Pure.pure a : Prog ν τ α) (fun _ => []) fun tables => some (a, tables) where
  returns _ _ _ _ _ _ h := by
    cases h
    rfl
  raises _ _ _ h := by simp at h

theorem Does.ofOption (result : Option α) : Does (ofOption result : Prog ν τ α) (fun _ => [])
    fun tables => result.map fun a => (a, tables) where
  returns _ _ _ _ _ _ h := by
    obtain ⟨a, rfl, ha⟩ := Option.map_eq_some_iff.mp h
    cases ha
    rfl
  raises _ _ _ h := ⟨by simpa [Prog.ofOption] using h, rfl⟩

theorem Does.statement {name : ν} {act : Conn τ → Option α × Conn τ} {f : τ → α × τ}
    (h : ∀ disk tables, act ⟨disk, some tables⟩ = (some (f tables).1, ⟨disk, some (f tables).2⟩)) :
    Does (statement name act) (fun _ => [name]) fun tables => some (f tables) where
  returns replies disk tables a tables' hdone hf := by
    rw [statement_done (hdone name (by simp)), h, Option.some.inj hf]
  raises replies disk tables hfail := statement_raises (by simpa using hfail)

theorem Does.query (name : ν) (read : τ → α) :
    Does (query name read) (fun _ => [name]) fun tables => some (read tables, tables) :=
  .statement fun _ _ => rfl

theorem Does.write (name : ν) (f : τ → τ) :
    Does (write name f) (fun _ => [name]) fun tables => some ((), f tables) :=
  .statement fun _ _ => rfl

/-- The statements of a sequence: those of its first part, and where that
returns, those of the second. -/
def thenNames (names : τ → List ν) (f : τ → Option (α × τ)) (names' : α → τ → List ν) (tables : τ) :
    List ν :=
  names tables ++ match f tables with
    | some (a, tables') => names' a tables'
    | none => []

theorem Does.bind {p : Prog ν τ α} {q : α → Prog ν τ β} {names : τ → List ν}
    {f : τ → Option (α × τ)} {names' : α → τ → List ν} {g : α → τ → Option (β × τ)}
    (hp : Does p names f) (hq : ∀ a, Does (q a) (names' a) (g a)) :
    Does (p >>= q) (thenNames names f names') fun tables => (f tables).bind fun e => g e.1 e.2 where
  returns replies disk tables b tables'' hdone hfg := by
    obtain ⟨⟨a, tables'⟩, hf, hg⟩ := Option.bind_eq_some_iff.mp hfg
    simp only [thenNames, hf, List.forall_mem_append] at hdone
    rw [bind_some (hp.returns replies disk tables a tables' hdone.1 hf)]
    exact (hq a).returns replies disk tables' b tables'' hdone.2 hg
  raises replies disk tables hraise := by
    by_cases hfirst : ∀ n ∈ names tables, replies n = .done
    · cases hf : f tables with
      | none => exact (hp.raises replies disk tables (.inr hf)).bind
      | some e =>
        obtain ⟨a, tables'⟩ := e
        have hsecond : ¬ (∀ n ∈ names' a tables', replies n = .done) ∨ g a tables' = none := by
          rcases hraise with hfail | hnone
          · refine .inl fun hsecond => hfail ?_
            simp only [thenNames, hf, List.forall_mem_append]
            exact ⟨hfirst, hsecond⟩
          · exact .inr (by simpa [hf] using hnone)
        unfold Raises
        rw [bind_some (hp.returns replies disk tables a tables' hfirst hf)]
        exact (hq a).raises replies disk tables' hsecond
    · exact (hp.raises replies disk tables (.inl hfirst)).bind

end Prog

end Transactions
