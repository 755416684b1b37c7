import LabProbe.WireGuard.System

/-!
# Server revisions

The agent executes only what is newer than what it has saved, a failure
leaves it as it was, and no revision that its numbers hold takes effect
twice unless a restart lost it. A revision beyond them is read as 0, which
an agent without a revision executes each time.
-/

namespace LabProbe.WireGuard

open Py Runs

section
variable [Unicode]

-- ---------------------------------------------------------------------------
-- The property
-- ---------------------------------------------------------------------------

omit [Unicode] in
/-- How often a revision has taken effect. -/
def System.successes (s : System) (revision : Nat) : Nat :=
  s.executions.countP fun x => x.ok && x.revision == revision

omit [Unicode] in
/-- How many restarts went back behind a revision. -/
def System.losses (s : System) (revision : Nat) : Nat :=
  s.restarts.countP fun x => x.saved < revision && revision ≤ x.memory

omit [Unicode] in
def System.AtMostOnce (s : System) (revision : Nat) : Prop :=
  s.successes revision ≤ 1 + s.losses revision

omit [Unicode] in
def System.taken (s : System) : Event → Option (Delivery × Bool)
  | .handle works => s.inbox.head?.map fun c => (c, works)
  | _ => none

/-- The saved revision does not decrease; what is executed is newer than it
and than the one in memory; what is not executed, and what fails, changes
neither; and a revision takes effect once, and again only after restarts
that lost it. -/
structure System.Safe (s : System) (e : Event) : Prop where
  saved : s.saved.revision ≤ (s.step e).saved.revision
  newer : ∀ c works, s.taken e = some (c, works) → s.agent.executes c = true →
    s.saved.revision < c.revision ∧ s.agent.revision < c.revision
  skipped : ∀ c works, s.taken e = some (c, works) → s.agent.executes c = false →
    (s.step e).agent.revision = s.agent.revision ∧ (s.step e).executions = s.executions
  failed : ∀ c works, s.taken e = some (c, works) → (s.agent.handle c works).2 = false →
    (s.step e).agent = s.agent ∧ (s.step e).saved = s.saved
  once : ∀ revision < 2 ^ 64, (s.step e).AtMostOnce revision

-- ---------------------------------------------------------------------------
-- The agent
-- ---------------------------------------------------------------------------

variable {s : System} {a : Agent} {c : Delivery} {works : Bool}

omit [Unicode] in
theorem readRevision_eq {revision : Nat} (h : revision < 2 ^ 64) :
    readRevision revision = revision := by
  rw [readRevision, asU64, if_pos h, Option.getD_some]

omit [Unicode] in
theorem readRevision_le (revision : Nat) : readRevision revision ≤ revision := by
  unfold readRevision asU64
  split <;> simp

omit [Unicode] in
theorem executes_iff : a.executes c = true ↔ c.action.isServer = true ∧
    a.revision ≤ readRevision c.revision ∧
      (readRevision c.revision = a.revision → a.revision = 0) := by
  simp only [Agent.executes, Bool.and_eq_true, Bool.not_eq_true', decide_eq_false_iff_not,
    Bool.and_eq_false_iff, beq_eq_false_iff_ne]
  constructor
  · rintro ⟨⟨hserver, hle⟩, hne⟩
    exact ⟨hserver, by omega, by omega⟩
  · rintro ⟨hserver, hle, heq⟩
    exact ⟨⟨hserver, by omega⟩, by omega⟩

omit [Unicode] in
theorem executes_newer (h : a.executes c = true) (hpos : 0 < c.revision) :
    a.revision < c.revision := by
  obtain ⟨-, hle, heq⟩ := executes_iff.mp h
  have := readRevision_le c.revision
  omega

omit [Unicode] in
theorem handle_executes (h : a.executes c = true) (works : Bool) :
    a.handle c works = if works && c.action.readable then
      ({ a.execute c.action with revision :=
          if a.revision < readRevision c.revision then readRevision c.revision else a.revision },
        true)
      else (a, false) := by
  obtain ⟨hserver, hle, heq⟩ := executes_iff.mp h
  unfold Agent.handle
  split
  · rename_i update hc
    simp [hc, Action.isServer] at hserver
  · dsimp only
    rw [if_neg (by omega), if_neg (by omega)]

omit [Unicode] in
theorem handle_skips (h : a.executes c = false) (works : Bool) :
    (a.handle c works).1.revision = a.revision := by
  unfold Agent.handle
  split
  · split <;> rfl
  · rename_i action hserver
    have hserver : c.action.isServer = true := by
      cases hc : c.action with
      | endpoint update => exact absurd hc (hserver update)
      | _ => rfl
    rw [← Bool.not_eq_true, executes_iff] at h
    dsimp only
    split
    · rfl
    · rw [if_pos (by grind)]

omit [Unicode] in
theorem handle_fails (h : (a.handle c works).2 = false) : (a.handle c works).1 = a := by
  revert h
  unfold Agent.handle
  split
  · split <;> simp
  · dsimp only
    split
    · simp
    · split
      · simp
      · split <;> simp

-- ---------------------------------------------------------------------------
-- The invariant
-- ---------------------------------------------------------------------------

omit [Unicode] in
def Delivery.Numbered (d : Delivery) : Prop := d.action.isServer = true → 0 < d.revision

omit [Unicode] in
/-- Only a document with a revision holds a server or a tombstone, memory is
not behind what was saved, and a revision that has taken effect is not ahead
of the agent's. -/
structure Numbered (s : System) : Prop where
  document : s.document.revision = 0 → s.document.server = none ∧ s.document.tombstone = none
  commands : ∀ c ∈ s.commands, c.delivery.Numbered
  inbox : ∀ c ∈ s.inbox, c.Numbered
  saved : s.saved.revision ≤ s.agent.revision
  once : ∀ revision < 2 ^ 64, s.successes revision ≤
    (if revision ≤ s.agent.revision then 1 else 0) + s.losses revision

omit [Unicode] in
theorem Numbered.start : Numbered {} := by
  refine ⟨fun _ => ⟨rfl, rfl⟩, ?_, ?_, Nat.le_refl _, ?_⟩
  · simp
  · simp
  · intro revision _
    exact Nat.zero_le _

omit [Unicode] in
theorem mem_queue {id router : String} {action : Action} {revision : Nat} {scope : Scope}
    {rows : List Command} {c : Command} (h : c ∈ queue id router action revision scope rows) :
    (c ∈ rows ∧ superseded router revision scope c = false) ∨
      c = { id := id, router := router, action := action, revision := revision, scope := scope } := by
  unfold queue at h
  have h := (Logs.cap_suffix _ _).subset h
  rw [List.mem_append, List.mem_filter, List.mem_singleton] at h
  exact h.imp_left fun h => ⟨h.1, by simpa using h.2⟩

omit [Unicode] in
theorem Numbered.order {id router : String} {action : Action} {document : Document}
    (hn : Numbered s) (hpos : 0 < document.revision) :
    Numbered (s.order id router action document) := by
  refine ⟨fun h => absurd h (by simpa [System.order] using Nat.ne_of_gt hpos), ?_, hn.inbox,
    hn.saved, hn.once⟩
  intro c hc
  simp only [System.order] at hc
  rcases mem_queue hc with ⟨hc, -⟩ | rfl
  · exact hn.commands c hc
  · exact fun _ => hpos

omit [Unicode] in
theorem put_revision {document saved : Document} {expected : Option Int} {server : Server}
    (h : put document expected server = .ok saved) : saved.revision = document.revision + 1 := by
  unfold put at h
  split at h
  · simp at h
  · cases h
    rfl

omit [Unicode] in
theorem delete_revision {document saved : Document} {expected : Option Int}
    (h : delete document expected = .ok saved) : saved.revision = document.revision + 1 := by
  unfold delete at h
  split at h
  · simp at h
  · cases h
    rfl

omit [Unicode] in
theorem handle_monotone (a : Agent) (c : Delivery) (works : Bool) :
    a.revision ≤ (a.handle c works).1.revision := by
  cases h : a.executes c with
  | true =>
    rw [handle_executes h]
    split
    · dsimp only
      split
      · exact Nat.le_of_lt ‹_›
      · exact Nat.le_refl _
    · exact Nat.le_refl _
  | false => exact Nat.le_of_eq (handle_skips h works).symm

omit [Unicode] in
/-- A success that counts raises the agent's revision to what is executed. -/
theorem Numbered.handle (hn : Numbered s) (works : Bool) : Numbered (s.handle works) := by
  unfold System.handle
  split
  · exact hn
  · rename_i c inbox hinbox
    have hmem : ∀ d ∈ inbox, d ∈ s.inbox := fun d hd => hinbox ▸ List.mem_cons_of_mem c hd
    have hle := handle_monotone s.agent c works
    refine ⟨hn.document, hn.commands, fun d hd => hn.inbox d (hmem d hd), Nat.le_trans hn.saved hle, ?_⟩
    intro revision hlt
    have hold := hn.once revision hlt
    cases hexec : s.agent.executes c with
    | false =>
      rw [handle_skips hexec]
      simpa [System.successes, System.losses] using hold
    | true =>
      obtain ⟨hserver, hnew, hsame⟩ := executes_iff.mp hexec
      have hpos := hn.inbox c (hinbox ▸ List.mem_cons_self) hserver
      have hread : c.revision = revision → readRevision c.revision = revision := by
        rintro rfl
        exact readRevision_eq hlt
      have hhandle := handle_executes hexec works
      cases hworks : works && c.action.readable with
      | false =>
        rw [hworks] at hhandle
        simpa [System.successes, System.losses, hhandle] using hold
      | true =>
        rw [hworks] at hhandle
        simp only [System.successes, System.losses, hhandle, if_true, List.countP_append,
          List.countP_singleton, Bool.true_and, beq_iff_eq] at hold ⊢
        grind

theorem Numbered.step (hn : Numbered s) (e : Event) : Numbered (s.step e) := by
  cases e with
  | put id router expected server =>
    simp only [System.step]
    split
    · rename_i document hput
      exact hn.order (by rw [put_revision hput]; omega)
    · exact hn
  | delete id router expected =>
    simp only [System.step]
    split
    · rename_i document hdelete
      exact hn.order (by rw [delete_revision hdelete]; omega)
    · exact hn
  | update id router profileId source owner endpoint expected =>
    simp only [System.step]
    split
    · rename_i saved update hupdate
      obtain ⟨server, profile, resolved, hserver, -, -, -, -, rfl, rfl⟩ := updateEndpoint_ok hupdate
      refine ⟨fun h => ?_, ?_, hn.inbox, hn.saved, hn.once⟩
      · have := (hn.document h).1
        simp [hserver] at this
      · intro c hc
        dsimp only at hc
        rcases mem_queue hc with ⟨hc, -⟩ | rfl
        · exact hn.commands c hc
        · exact fun h => (nomatch h)
    · exact hn
  | status id router revision =>
    simp only [System.step]
    split
    · rename_i action haction
      refine hn.order (Nat.pos_of_ne_zero fun hzero => ?_)
      obtain ⟨hserver, htombstone⟩ := hn.document hzero
      simp [statusAction, hserver, htombstone] at haction
    · exact hn
  | poll now router limit lost =>
    refine ⟨hn.document, ?_, ?_, hn.saved, hn.once⟩
    · intro c hc
      have hmem : c.core ∈ (agentCommands now router limit s.commands).2.map Command.core :=
        List.mem_map_of_mem hc
      rw [agentCommands_core] at hmem
      obtain ⟨row, hrow, heq⟩ := List.mem_map.mp hmem
      have heq : row.delivery = c.delivery := congrArg (fun core => core.2.1) heq
      exact heq ▸ hn.commands row hrow
    · intro c hc
      have hmem : c ∈ s.inbox ∨
          c ∈ (agentCommands now router limit s.commands).1.map Command.delivery := by
        cases lost with
        | true => exact .inl hc
        | false => exact List.mem_append.mp hc
      rcases hmem with hmem | hmem
      · exact hn.inbox c hmem
      · obtain ⟨row, hrow, -, rfl⟩ := sent_core hmem
        exact hn.commands row hrow
  | handle works => exact hn.handle works
  | ack acks =>
    refine ⟨hn.document, ?_, hn.inbox, hn.saved, hn.once⟩
    intro c hc
    obtain ⟨row, hrow, rfl⟩ := List.mem_map.mp hc
    rcases ackCommand_cases (s.sendable acks) row with heq | ⟨heq, -⟩
    · exact heq.symm ▸ hn.commands row hrow
    · exact heq.symm ▸ hn.commands row hrow
  | persist => exact ⟨hn.document, hn.commands, hn.inbox, Nat.le_refl _, hn.once⟩
  | restart =>
    refine ⟨hn.document, hn.commands, ?_, Nat.le_refl _, ?_⟩
    · simp [System.step]
    · intro revision hlt
      have hold := hn.once revision hlt
      have hsaved := hn.saved
      simp only [System.step, System.successes, System.losses, List.countP_append,
        List.countP_singleton, Bool.and_eq_true, decide_eq_true_eq] at hold ⊢
      grind

omit [Unicode] in
theorem taken_eq {e : Event} (h : s.taken e = some (c, works)) :
    ∃ inbox, e = .handle works ∧ s.inbox = c :: inbox := by
  cases e with
  | handle works' =>
    obtain ⟨d, hd, heq⟩ := Option.map_eq_some_iff.mp h
    cases heq
    obtain ⟨inbox, hinbox⟩ := List.head?_eq_some_iff.mp hd
    exact ⟨inbox, rfl, hinbox⟩
  | _ => simp [System.taken] at h

theorem Numbered.safe (hn : Numbered s) (e : Event) : s.Safe e := by
  have hnext := hn.step e
  refine ⟨?_, ?_, ?_, ?_, ?_⟩
  · cases e with
    | put | delete | update | status =>
      simp only [System.step]
      split <;> exact Nat.le_refl _
    | handle works =>
      simp only [System.step, System.handle]
      split <;> exact Nat.le_refl _
    | persist => exact hn.saved
    | poll | ack | restart => exact Nat.le_refl _
  · intro c works htaken hexec
    obtain ⟨inbox, rfl, hinbox⟩ := taken_eq htaken
    have hpos := hn.inbox c (hinbox ▸ List.mem_cons_self) (executes_iff.mp hexec).1
    have hnew := executes_newer hexec hpos
    exact ⟨Nat.lt_of_le_of_lt hn.saved hnew, hnew⟩
  · intro c works htaken hexec
    obtain ⟨inbox, rfl, hinbox⟩ := taken_eq htaken
    simp [System.step, System.handle, hinbox, hexec, handle_skips hexec]
  · intro c works htaken hfail
    obtain ⟨inbox, rfl, hinbox⟩ := taken_eq htaken
    simp [System.step, System.handle, hinbox, handle_fails hfail]
  · intro revision hlt
    have hcount := hnext.once revision hlt
    unfold System.AtMostOnce
    split at hcount <;> omega

/-- Every step of every run is safe. -/
theorem server_safe (es : List Event) : Along System.step System.Safe {} es :=
  along_of_invariant Numbered.start (fun _ e hn => hn.step e) fun _ e hn => hn.safe e

end

section
local instance asciiRevisions : Unicode := .ascii

def labDelete : Event := .delete "wg-cmd-1" "router" none

theorem run_labDelete {n : Nat} (hn : 0 < n) :
    run System.step {} (List.replicate n labDelete) =
      { document := { revision := n, tombstone := some "labwg0" }
        commands := [{ id := "wg-cmd-1", router := "router", action := .delete "labwg0"
                       revision := n, scope := .server }] } := by
  induction n with
  | zero => simp at hn
  | succ n ih =>
    rw [List.replicate_succ', run_append]
    cases n with
    | zero => rfl
    | succ n =>
      rw [ih (Nat.succ_pos n)]
      simp [labDelete, System.step, delete, System.order, queue, superseded, Command.unfinished,
        Logs.cap, defaultInterface]

/-- The revision after as many deletes as the agent's numbers count is read as
0, and a retry of its command takes effect again. -/
theorem server_repeats_unreadable :
    ¬ (run System.step {} (List.replicate (2 ^ 64) labDelete ++ [.poll 0 "router" 10 false,
      .handle true, .poll 15 "router" 10 false, .handle true])).AtMostOnce (2 ^ 64) := by
  rw [run_append, run_labDelete (by decide), System.AtMostOnce]
  decide

end

end LabProbe.WireGuard
