import LabProbe.Lib.Run
import LabProbe.Lib.Sightings
import LabProbe.Router.Frame

/-!
# Addresses seen twice

Cycles of the automation, edits of its bindings and restarts, in any order. The
history has every address that a cycle has found for a binding, in order; the
code does not keep it. An address is written when it is the candidate of its
rule and is found again. Finding no address leaves the candidate, so that an
address which was lost in between is written at once.
-/

namespace LabProbe.Router

open Py Py.Json Hub Check Sightings Runs

structure Watch where
  candidates : Candidates
  seen : List (String × String)

structure AutomationSystem where
  document : List Entries
  watch : Watch

section
variable [Unicode] [Sha256]

-- ---------------------------------------------------------------------------
-- One turn of the loop
-- ---------------------------------------------------------------------------

/-- The rule of a binding and the address found for it, if the turn comes to
look for one. -/
def observes (mappings : Mappings) (firewall : Json) (binding : Entries) : Option (Entries × String) :=
  match if active binding then findRule firewall (uuidOf binding) else none with
  | some rule =>
    if drifted binding rule || !ruleCompatible mappings rule binding then none
    else some (rule, resolve mappings binding)
  | none => none

def observed (mappings : Mappings) (firewall : Json) (binding : Entries) : List (String × String) :=
  (observes mappings firewall binding).toList.map fun e => (uuidOf binding, e.2)

def Watch.turn (w : Watch) (mappings : Mappings) (firewall : Json) (binding : Entries) : Watch where
  candidates := (consider mappings firewall w.candidates binding).1
  seen := w.seen ++ observed mappings firewall binding

/-- What a turn does with the candidates: it finds no address to compare, none
at all, the one the rule has, its candidate, or another one. -/
inductive Turn (mappings : Mappings) (firewall : Json) (w : Watch) (binding : Entries) :
    Watch → Plan → Prop
  | unseen (plan : Plan) : observes mappings firewall binding = none →
    (∀ written rule desired, plan ≠ .write written rule desired) →
    Turn mappings firewall w binding w plan
  | blank (rule : Entries) : observes mappings firewall binding = some (rule, "") →
    Turn mappings firewall w binding ⟨w.candidates, w.seen ++ [(uuidOf binding, "")]⟩ .idle
  | same (rule : Entries) (desired : String) :
    observes mappings firewall binding = some (rule, desired) →
    currentValue binding rule = desired →
    Turn mappings firewall w binding
      ⟨Dict.erase w.candidates (uuidOf binding), w.seen ++ [(uuidOf binding, desired)]⟩ .idle
  | again (rule : Entries) (desired : String) (count : Nat) :
    observes mappings firewall binding = some (rule, desired) → desired ≠ "" →
    currentValue binding rule ≠ desired →
    Dict.get? w.candidates (uuidOf binding) = some (desired, count) →
    Turn mappings firewall w binding
      ⟨Dict.set w.candidates (uuidOf binding) (desired, min stableObservations (count + 1)),
        w.seen ++ [(uuidOf binding, desired)]⟩
      (if stableObservations ≤ min stableObservations (count + 1) then .write binding rule desired
        else .idle)
  | first (rule : Entries) (desired : String) :
    observes mappings firewall binding = some (rule, desired) → desired ≠ "" →
    (∀ count, Dict.get? w.candidates (uuidOf binding) ≠ some (desired, count)) →
    Turn mappings firewall w binding
      ⟨Dict.set w.candidates (uuidOf binding) (desired, 1), w.seen ++ [(uuidOf binding, desired)]⟩
      .idle

variable {mappings : Mappings} {firewall : Json} {w : Watch} {binding : Entries}

theorem followed (mappings : Mappings) (w : Watch) (binding rule : Entries)
    (h : observes mappings firewall binding = some (rule, resolve mappings binding))
    (hcompatible : ruleCompatible mappings rule binding = true) :
    Turn mappings firewall w binding
      ⟨(follow mappings w.candidates binding rule).1,
        w.seen ++ [(uuidOf binding, resolve mappings binding)]⟩
      (follow mappings w.candidates binding rule).2 := by
  generalize hdesired : resolve mappings binding = desired at h
  unfold follow
  dsimp only
  rw [hdesired, hcompatible]
  by_cases hblank : desired = ""
  · subst hblank
    exact .blank rule h
  · rw [if_neg (by simp [hblank])]
    by_cases hsame : currentValue binding rule = desired
    · rw [if_pos hsame]
      exact .same rule desired h hsame
    · rw [if_neg hsame]
      cases hget : Dict.get? w.candidates (uuidOf binding) with
      | none =>
        have hfirst : candidateConfirmed w.candidates (uuidOf binding) desired =
            (Dict.set w.candidates (uuidOf binding) (desired, 1), false) := by
          rw [candidateConfirmed, hget]
        rw [hfirst]
        exact .first rule desired h hblank fun count => by simp [hget]
      | some entry =>
        obtain ⟨value, count⟩ := entry
        by_cases hvalue : value = desired
        · subst hvalue
          have hagain : candidateConfirmed w.candidates (uuidOf binding) value =
              (Dict.set w.candidates (uuidOf binding) (value, min stableObservations (count + 1)),
                decide (stableObservations ≤ min stableObservations (count + 1))) := by
            simp [candidateConfirmed, hget]
          rw [hagain]
          simpa using Turn.again rule value count h hblank hsame hget
        · have hfirst : candidateConfirmed w.candidates (uuidOf binding) desired =
              (Dict.set w.candidates (uuidOf binding) (desired, 1), false) := by
            rw [candidateConfirmed, hget]
            dsimp only
            rw [if_neg hvalue]
          rw [hfirst]
          exact .first rule desired h hblank fun other => by simp [hget, hvalue]

theorem turn_spec (mappings : Mappings) (firewall : Json) (w : Watch) (binding : Entries) :
    Turn mappings firewall w binding (w.turn mappings firewall binding)
      (consider mappings firewall w.candidates binding).2 := by
  have hseen : ∀ {rule : Entries} {desired : String},
      observes mappings firewall binding = some (rule, desired) →
        observed mappings firewall binding = [(uuidOf binding, desired)] := by
    intro rule desired hobserves
    rw [observed, hobserves]
    rfl
  have hunseen : observes mappings firewall binding = none →
      (consider mappings firewall w.candidates binding).1 = w.candidates →
        w.turn mappings firewall binding = w := by
    intro hobserves hcandidates
    rw [Watch.turn, hcandidates, observed, hobserves]
    simp
  cases hfound : if active binding then findRule firewall (uuidOf binding) else none with
  | none =>
    have hobserves : observes mappings firewall binding = none := by rw [observes, hfound]
    have hconsider : consider mappings firewall w.candidates binding = (w.candidates, .idle) := by
      rw [consider, hfound]
    rw [hunseen hobserves (by rw [hconsider]), hconsider]
    exact .unseen _ hobserves fun _ _ _ h => by cases h
  | some rule =>
    cases hdrifted : drifted binding rule with
    | true =>
      have hobserves : observes mappings firewall binding = none := by
        simp [observes, hfound, hdrifted]
      have hconsider : consider mappings firewall w.candidates binding = (w.candidates,
          .suspend binding
            (if lastApplied binding = "" then "confirmation_required" else "manual_change")) := by
        simp [consider, hfound, hdrifted]
      rw [hunseen hobserves (by rw [hconsider]), hconsider]
      exact .unseen _ hobserves fun _ _ _ h => by cases h
    | false =>
      have hfollow : consider mappings firewall w.candidates binding =
          follow mappings w.candidates binding rule := by
        simp [consider, hfound, hdrifted]
      cases hcompatible : ruleCompatible mappings rule binding with
      | false =>
        have hobserves : observes mappings firewall binding = none := by
          simp [observes, hfound, hcompatible]
        have hidle : follow mappings w.candidates binding rule = (w.candidates, .idle) := by
          simp [follow, hcompatible]
        rw [hunseen hobserves (by rw [hfollow, hidle]), hfollow, hidle]
        exact .unseen _ hobserves fun _ _ _ h => by cases h
      | true =>
        have hobserves : observes mappings firewall binding =
            some (rule, resolve mappings binding) := by
          simp [observes, hfound, hdrifted, hcompatible]
        have hfollowed := followed mappings w binding rule hobserves hcompatible
        rwa [Watch.turn, hseen hobserves, hfollow]

-- ---------------------------------------------------------------------------
-- The loop
-- ---------------------------------------------------------------------------

def Watch.scan (mappings : Mappings) (firewall : Json) : Watch → List Entries → Watch × Plan
  | w, [] => (w, .idle)
  | w, binding :: rest =>
    match (consider mappings firewall w.candidates binding).2 with
    | .idle => Watch.scan mappings firewall (w.turn mappings firewall binding) rest
    | plan => (w.turn mappings firewall binding, plan)

theorem scan_eq (mappings : Mappings) (firewall : Json) (w : Watch) (bindings : List Entries) :
    ((w.scan mappings firewall bindings).1.candidates, (w.scan mappings firewall bindings).2) =
      Router.scan mappings firewall w.candidates bindings := by
  induction bindings generalizing w with
  | nil => rfl
  | cons binding rest ih =>
    unfold Watch.scan Router.scan
    cases hconsider : consider mappings firewall w.candidates binding with
    | mk candidates plan =>
      have hturn : (w.turn mappings firewall binding).candidates = candidates := by
        rw [Watch.turn, hconsider]
      cases plan with
      | idle =>
        rw [← hturn]
        exact ih (w.turn mappings firewall binding)
      | suspend | write => exact Prod.ext hturn rfl

/-- No turn comes to an address by its candidate right after it found none. -/
def Watch.Unbroken (mappings : Mappings) (firewall : Json) : Watch → List Entries → Prop
  | _, [] => True
  | w, binding :: rest =>
    (∀ rule desired count, observes mappings firewall binding = some (rule, desired) →
      currentValue binding rule ≠ desired →
      Dict.get? w.candidates (uuidOf binding) = some (desired, count) →
      (valuesOf (uuidOf binding) w.seen).getLast? ≠ some "") ∧
    ((consider mappings firewall w.candidates binding).2 = .idle →
      Watch.Unbroken mappings firewall (w.turn mappings firewall binding) rest)

/-- Every candidate was found, and nothing else of its rule but no address since. -/
abbrev Watch.Sound (w : Watch) : Prop := Tracks "" w.candidates w.seen

theorem Turn.sound {w' : Watch} {p : Plan} (h : Turn mappings firewall w binding w' p)
    (hs : w.Sound) : w'.Sound := by
  cases h with
  | unseen => exact hs
  | blank => exact hs.append_blank
  | same => exact hs.erase_append
  | again rule desired count hobserves hne =>
    exact hs.set hne (Nat.le_min.mpr ⟨by decide, Nat.le_add_left 1 count⟩)
  | first rule desired hobserves hne => exact hs.set hne (Nat.le_refl 1)

theorem Turn.twice_iff {w' : Watch} {p : Plan} (h : Turn mappings firewall w binding w' p)
    (hs : w.Sound) :
    (∀ written rule desired, p = .write written rule desired → Twice w'.seen (uuidOf written) desired) ↔
      ∀ rule desired count, observes mappings firewall binding = some (rule, desired) →
        currentValue binding rule ≠ desired →
        Dict.get? w.candidates (uuidOf binding) = some (desired, count) →
        (valuesOf (uuidOf binding) w.seen).getLast? ≠ some "" := by
  cases h with
  | unseen _ hobserves hother =>
    refine iff_of_true (fun written rule desired hp => absurd hp (hother written rule desired)) ?_
    rintro rule desired count hsome
    rw [hobserves] at hsome
    cases hsome
  | blank rule hobserves =>
    refine iff_of_true (fun written rule desired hp => by cases hp) ?_
    rintro rule' desired count hsome - hget
    rw [hobserves] at hsome
    cases hsome
    exact absurd rfl (hs _ _ _ hget).2.1
  | same rule desired hobserves hsame =>
    refine iff_of_true (fun written rule desired hp => by cases hp) ?_
    rintro rule' desired' count hsome hne
    rw [hobserves] at hsome
    cases hsome
    exact absurd hsame hne
  | first rule desired hobserves hne hnone =>
    refine iff_of_true (fun written rule desired hp => by cases hp) ?_
    rintro rule' desired' count hsome - hget
    rw [hobserves] at hsome
    cases hsome
    exact absurd hget (hnone count)
  | again rule desired count hobserves hne hchanged hget =>
    have hcount : stableObservations ≤ min stableObservations (count + 1) :=
      Nat.le_min.mpr ⟨Nat.le_refl _, Nat.succ_le_succ (hs _ _ _ hget).1⟩
    rw [if_pos hcount]
    constructor
    · rintro htwice rule' desired' count' hsome - -
      rw [hobserves] at hsome
      cases hsome
      exact (hs.twice_iff hget).mp (htwice binding rule desired rfl)
    · rintro hunbroken written rule' desired' hp
      cases hp
      exact (hs.twice_iff hget).mpr (hunbroken rule desired count hobserves hchanged hget)

theorem scan_sound {bindings : List Entries} (hs : w.Sound) :
    (w.scan mappings firewall bindings).1.Sound := by
  induction bindings generalizing w with
  | nil => exact hs
  | cons binding rest ih =>
    have hturn := (turn_spec mappings firewall w binding).sound hs
    unfold Watch.scan
    split
    · exact ih hturn
    · exact hturn

/-- What the loop writes it found twice in a row, exactly if no turn was broken. -/
theorem scan_twice_iff {bindings : List Entries} (hs : w.Sound) :
    (∀ written rule desired, (w.scan mappings firewall bindings).2 = .write written rule desired →
      Twice (w.scan mappings firewall bindings).1.seen (uuidOf written) desired) ↔
      w.Unbroken mappings firewall bindings := by
  induction bindings generalizing w with
  | nil => exact iff_of_true (fun written rule desired hp => by cases hp) trivial
  | cons binding rest ih =>
    have hspec := turn_spec mappings firewall w binding
    have htwice := hspec.twice_iff hs
    unfold Watch.scan Watch.Unbroken
    split
    · rename_i hidle
      rw [hidle] at htwice
      rw [ih (hspec.sound hs), ← htwice]
      constructor
      · intro h
        exact ⟨fun written rule desired hp => absurd hp (by simp), fun _ => h⟩
      · intro h
        exact h.2 hidle
    · rename_i hplan
      rw [← htwice, and_iff_left (fun hidle => absurd hidle hplan)]

-- ---------------------------------------------------------------------------
-- Runs
-- ---------------------------------------------------------------------------

/-- What happens to the automation: a cycle for one rule or all, with what the
router answers to its write, an edit of the bindings, or a restart. -/
inductive AutomationEvent where
  | reconcile (mappings : Mappings) (firewall : Json) (firewallUuid : String)
    (answer : Except AutomationError Json) (now : Int)
  | upsert (mappings : Mappings) (firewall : Json) (firewallUuid : Json) (body : Entries) (now : Int)
  | delete (firewallUuid : String)
  | restart

/-- What a cycle does once its loop has ended. A candidate is forgotten with the
suspension or the write of its binding. -/
def settle (document : List Entries) (now : Int) (answer : Except AutomationError Json) (w : Watch)
    (plan : Plan) : AutomationSystem :=
  match saved now answer plan with
  | some replacement =>
    { document := replaceBinding document replacement
      watch := { w with candidates := Dict.erase w.candidates (uuidOf replacement) } }
  | none => { document, watch := w }

def cycleBindings (document : List Entries) (firewallUuid : String) : List Entries :=
  (bindings document).filter fun row => firewallUuid == "" || uuidOf row == firewallUuid

def AutomationSystem.step (s : AutomationSystem) : AutomationEvent → AutomationSystem
  | .reconcile mappings firewall firewallUuid answer now =>
    let (w, plan) := s.watch.scan mappings firewall (cycleBindings s.document firewallUuid)
    settle s.document now answer w plan
  | .upsert mappings firewall firewallUuid body now =>
    match upsert mappings firewall firewallUuid body now s.document with
    | .ok document => { s with document }
    | .error _ => s
  | .delete firewallUuid =>
    let (document, candidates) := delete firewallUuid s.document s.watch.candidates
    { document, watch := { s.watch with candidates } }
  | .restart => { s with watch := { s.watch with candidates := [] } }

/-- The address of a write was found for its rule twice in a row. -/
def AutomationSystem.Confirmed (s : AutomationSystem) : AutomationEvent → Prop
  | .reconcile mappings firewall firewallUuid _ _ =>
    ∀ written rule desired,
      (s.watch.scan mappings firewall (cycleBindings s.document firewallUuid)).2 =
        .write written rule desired →
      Twice (s.watch.scan mappings firewall (cycleBindings s.document firewallUuid)).1.seen
        (uuidOf written) desired
  | _ => True

def AutomationSystem.Unbroken (s : AutomationSystem) : AutomationEvent → Prop
  | .reconcile mappings firewall firewallUuid _ _ =>
    s.watch.Unbroken mappings firewall (cycleBindings s.document firewallUuid)
  | _ => True

theorem step_sound {s : AutomationSystem} (e : AutomationEvent) (hs : s.watch.Sound) :
    (s.step e).watch.Sound := by
  cases e with
  | reconcile mappings firewall firewallUuid answer now =>
    have hscan : (s.watch.scan mappings firewall (cycleBindings s.document firewallUuid)).1.Sound :=
      scan_sound hs
    unfold AutomationSystem.step settle
    dsimp only
    split
    · exact hscan.erase
    · exact hscan
  | upsert mappings firewall firewallUuid body now =>
    unfold AutomationSystem.step
    dsimp only
    split
    · exact hs
    · exact hs
  | delete firewallUuid =>
    unfold AutomationSystem.step delete
    dsimp only
    split
    · exact hs.erase
    · exact hs
  | restart => exact tracks_nil

end

attribute [local instance] Unicode.ascii nasSha256

/-- A cycle while the mapping of the rule has that address. -/
def nasCycle (destIp : String) : AutomationEvent :=
  .reconcile
    { relay := none
      runtimes := []
      native := .dict [("portMapping", .list [.dict [("ruleName", .str "NAS"),
        ("destIp", .str destIp), ("destPort", .str "9443"), ("proto", .str "tcp")]])] }
    (nasFirewall "NAS") "" (.ok .null) 0

end LabProbe.Router
