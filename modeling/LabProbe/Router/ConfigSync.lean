import LabProbe.Lib.Run
import LabProbe.Router.Config

/-!
# Confirmed snapshots and loads under way

A refresh and the read-back of a command load a value from the router and
hand it to `accept` afterwards, so loads of one resource end in any order.
`accept` asks only whether the value differs from the snapshot. A load that
began before the read-back of a command, and ends after it, puts the value
of before the command in the place of the confirmed one.

The write lock orders the read-backs, and the thread of the refresh runs one
at a time; the runs here do not rely on either. Kept on the side are the
beginnings of the read-backs whose results were accepted.
-/

namespace LabProbe.Router

open Py Runs

structure Load where
  resource : Resource
  source : Source
  began : Nat
  deriving DecidableEq

structure ConfigSystem (δ : Type) where
  sync : ConfigSync δ
  loads : List Load := []
  /-- Counts the beginnings of loads. -/
  clock : Nat := 0
  confirmed : List (Resource × Nat) := []

inductive ConfigEvent where
  | refresh (resource : Resource)
  | readBack (cachePrefix : String)
  | finish (now load : Nat) (result : Option Json)

variable {δ : Type} [DecidableEq δ] (hash : Json → δ)

def ConfigSystem.begin (s : ConfigSystem δ) (resource : Resource) (source : Source) :
    ConfigSystem δ :=
  { s with loads := s.loads ++ [⟨resource, source, s.clock⟩], clock := s.clock + 1 }

/-- The load at this place ends; without a result, where it raises. -/
def ConfigSystem.finish (s : ConfigSystem δ) (now : Nat) (i : Nat) (load : Load)
    (result : Option Json) : ConfigSystem δ :=
  match result with
  | none => { s with loads := s.loads.eraseIdx i }
  | some data =>
    { s with
      sync := (s.sync.accept hash now load.resource data load.source).1
      loads := s.loads.eraseIdx i
      confirmed := if load.source = .command then s.confirmed ++ [(load.resource, load.began)]
        else s.confirmed }

def ConfigSystem.step (s : ConfigSystem δ) : ConfigEvent → ConfigSystem δ
  | .refresh resource => s.begin resource .sync
  | .readBack cachePrefix =>
    match Dict.get? resourceByCacheKey cachePrefix with
    | some resource => s.begin resource .command
    | none => s
  | .finish now i result =>
    match s.loads[i]? with
    | some load => s.finish hash now i load result
    | none => s

def ConfigSystem.row (s : ConfigSystem δ) (resource : Resource) : Option (Row δ) :=
  Dict.get? s.sync.rows resource

/-- A changed row has a higher revision than every row before the step. -/
def ConfigSystem.Rises (s : ConfigSystem δ) (e : ConfigEvent) : Prop :=
  ∀ resource row, (s.step hash e).row resource = some row → s.row resource ≠ some row →
    ∀ old ∈ s.sync.rows, old.2.revision < row.revision

/-- A load that replaces a snapshot began no earlier than the read-back of
any command whose result was accepted. -/
def ConfigSystem.KeepsConfirmed (s : ConfigSystem δ) (e : ConfigEvent) : Prop :=
  match e with
  | .finish _ i _ => ∀ load ∈ s.loads[i]?,
    (s.step hash e).row load.resource ≠ s.row load.resource →
      ∀ c ∈ s.confirmed, c.1 = load.resource → c.2 ≤ load.began
  | _ => True

/-- When the result of a command is accepted, no load of the resource is under
way that began before its read-back. -/
def ConfigSystem.KeepsPace (s : ConfigSystem δ) : ConfigEvent → Prop
  | .finish _ i (some _) => ∀ load ∈ s.loads[i]?, load.source = .command →
    ∀ other ∈ s.loads.eraseIdx i, other.resource = load.resource → load.began ≤ other.began
  | _ => True

omit [DecidableEq δ] in
instance (s : ConfigSystem δ) (e : ConfigEvent) : Decidable (s.KeepsPace e) := by
  unfold ConfigSystem.KeepsPace
  exact match e with
    | .refresh .. | .readBack .. | .finish _ _ none | .finish _ _ (some _) => inferInstance

-- ---------------------------------------------------------------------------
-- Revisions
-- ---------------------------------------------------------------------------

variable {s : ConfigSystem δ} {e : ConfigEvent}

theorem step_sync (s : ConfigSystem δ) (e : ConfigEvent) : (s.step hash e).sync = s.sync ∨
    ∃ now i data load, e = .finish now i (some data) ∧ s.loads[i]? = some load ∧
      (s.step hash e).sync = (s.sync.accept hash now load.resource data load.source).1 := by
  cases e with
  | refresh resource => exact .inl rfl
  | readBack cachePrefix =>
    left
    simp only [ConfigSystem.step]
    split <;> rfl
  | finish now i result =>
    cases hload : s.loads[i]? with
    | none => exact .inl (by simp [ConfigSystem.step, hload])
    | some load =>
      cases result with
      | none => exact .inl (by simp [ConfigSystem.step, ConfigSystem.finish, hload])
      | some data =>
        exact .inr ⟨now, i, data, load, rfl, hload,
          by simp [ConfigSystem.step, ConfigSystem.finish, hload]⟩

theorem numbered_step (h : Numbered s.sync) : Numbered (s.step hash e).sync := by
  rcases step_sync hash s e with hsame | ⟨now, i, data, load, -, -, heq⟩
  · rw [hsame]
    exact h
  · rw [heq]
    exact h.accept hash

theorem rises_of_numbered (h : Numbered s.sync) : s.Rises hash e := by
  intro resource row hrow hne old hold
  unfold ConfigSystem.row at hrow hne
  rcases step_sync hash s e with hsame | ⟨now, i, data, load, -, -, heq⟩
  · rw [hsame] at hrow
    exact absurd hrow hne
  · rw [heq] at hrow
    rcases accept_cases hash s.sync now load.resource data load.source with
      ⟨hsame, -⟩ | ⟨new, hnew, -, hacc⟩
    · rw [hsame] at hrow
      exact absurd hrow hne
    · rw [hacc, Dict.get?_set] at hrow
      split_ifs at hrow
      · obtain rfl := Option.some.inj hrow
        rw [hnew]
        exact Nat.lt_succ_of_le (h old hold)
      · exact absurd hrow hne

-- ---------------------------------------------------------------------------
-- Loads that begin after what is confirmed
-- ---------------------------------------------------------------------------

/-- Every load under way began after the confirmed read-backs of its resource. -/
structure Paced (s : ConfigSystem δ) : Prop where
  loads : ∀ load ∈ s.loads, load.began < s.clock
  past : ∀ c ∈ s.confirmed, c.2 < s.clock
  ahead : ∀ c ∈ s.confirmed, ∀ load ∈ s.loads, load.resource = c.1 → c.2 ≤ load.began

omit [DecidableEq δ] in
theorem Paced.begin (h : Paced s) (resource : Resource) (source : Source) :
    Paced (s.begin resource source) where
  loads load hload := by
    rcases List.mem_append.mp hload with hload | hload
    · exact (h.loads load hload).trans (Nat.lt_succ_self _)
    · obtain rfl := List.mem_singleton.mp hload
      exact Nat.lt_succ_self _
  past c hc := (h.past c hc).trans (Nat.lt_succ_self _)
  ahead c hc load hload hr := by
    rcases List.mem_append.mp hload with hload | hload
    · exact h.ahead c hc load hload hr
    · obtain rfl := List.mem_singleton.mp hload
      exact (h.past c hc).le

theorem Paced.finish (h : Paced s) {now i : Nat} {load : Load} {result : Option Json}
    (hload : s.loads[i]? = some load) (hk : s.KeepsPace (.finish now i result)) :
    Paced (s.finish hash now i load result) := by
  have hrest : ∀ other ∈ s.loads.eraseIdx i, other ∈ s.loads :=
    fun other hother => List.mem_of_mem_eraseIdx hother
  have hmem : load ∈ s.loads := List.mem_of_getElem? hload
  cases result with
  | none =>
    exact ⟨fun other ho => h.loads other (hrest other ho), h.past,
      fun c hc other ho => h.ahead c hc other (hrest other ho)⟩
  | some data =>
    refine ⟨fun other ho => h.loads other (hrest other ho), ?_, ?_⟩
    · intro c hc
      simp only [ConfigSystem.finish] at hc
      split_ifs at hc
      · rcases List.mem_append.mp hc with hc | hc
        · exact h.past c hc
        · obtain rfl := List.mem_singleton.mp hc
          exact h.loads load hmem
      · exact h.past c hc
    · intro c hc other ho hr
      simp only [ConfigSystem.finish] at hc
      split_ifs at hc with hcommand
      · rcases List.mem_append.mp hc with hc | hc
        · exact h.ahead c hc other (hrest other ho) hr
        · obtain rfl := List.mem_singleton.mp hc
          exact hk load hload hcommand other ho hr
      · exact h.ahead c hc other (hrest other ho) hr

theorem Paced.step (h : Paced s) (hk : s.KeepsPace e) : Paced (s.step hash e) := by
  cases e with
  | refresh resource => exact h.begin resource .sync
  | readBack cachePrefix =>
    simp only [ConfigSystem.step]
    split
    · exact h.begin _ .command
    · exact h
  | finish now i result =>
    simp only [ConfigSystem.step]
    split
    · rename_i load hload
      exact h.finish hash hload hk
    · exact h

theorem Paced.keepsConfirmed (h : Paced s) : s.KeepsConfirmed hash e := by
  cases e with
  | finish now i result =>
    intro load hload _ c hc hr
    exact h.ahead c hc load (List.mem_of_getElem? hload) hr.symm
  | _ => exact trivial

/-- From any stored document, revisions rise with every change; and where no
command is confirmed beside an older load, no snapshot goes back behind one. -/
theorem snapshots_keep_confirmed (revision : Nat) (rows : List (Resource × Row δ))
    (es : List ConfigEvent) :
    Along (ConfigSystem.step hash) (ConfigSystem.Rises hash) ⟨.load revision rows, [], 0, []⟩ es ∧
    (Along (ConfigSystem.step hash) ConfigSystem.KeepsPace ⟨.load revision rows, [], 0, []⟩ es →
      Along (ConfigSystem.step hash) (ConfigSystem.KeepsConfirmed hash)
        ⟨.load revision rows, [], 0, []⟩ es) := by
  constructor
  · exact along_of_invariant (load_numbered revision rows)
      (fun s e => numbered_step hash) fun s e => rises_of_numbered hash
  · intro hk
    have hstart : Paced ⟨.load revision rows, [], 0, []⟩ := by
      refine ⟨?_, ?_, ?_⟩ <;> simp
    exact hk.mono hstart (fun s e h hk => h.step hash hk) fun s e h _ => h.keepsConfirmed hash

section

/-- The firewall with one rule. -/
def firewallRule (name : String) : Json := .dict [("list", .list [.dict [("name", .str name)]])]

def commandInstead : List ConfigEvent :=
  [.readBack "firewall", .finish 10 0 (some (firewallRule "new")), .refresh .firewall,
    .finish 15 0 (some (firewallRule "new"))]

theorem snapshots_keep_firewall :
    Along (ConfigSystem.step id) (ConfigSystem.Rises id) ⟨.load 0 [], [], 0, []⟩ commandInstead ∧
    Along (ConfigSystem.step id) (ConfigSystem.KeepsConfirmed id) ⟨.load 0 [], [], 0, []⟩
      commandInstead := by
  have h := snapshots_keep_confirmed (id : Json → Json) 0 [] commandInstead
  exact ⟨h.1, h.2 (by decide)⟩

/-- A refresh that began before the command brings back the rule of before. -/
theorem refresh_undoes_firewall :
    ¬Along (ConfigSystem.step id) (ConfigSystem.KeepsConfirmed id) ⟨.load 0 [], [], 0, []⟩
      [.refresh .firewall, .readBack "firewall", .finish 10 1 (some (firewallRule "new")),
        .finish 11 0 (some (firewallRule "old"))] := by
  intro h
  have hlast := h.2.2.2.1 ⟨.firewall, .sync, 0⟩ (by decide) (by decide) (.firewall, 1) (by decide) rfl
  exact absurd hlast (by decide)

end

end LabProbe.Router
