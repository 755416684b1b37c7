import LabProbe.Lib.Run
import LabProbe.Stun.Report
import Mathlib.Logic.Function.Basic

/-!
# Who changed the mapping

The port mappings of the router, which other parties change as well. A write
may be rejected, take effect and be read back, or take effect and end in an
exception or with another row. Beside the bindings stand, for each rule, the
row that was last read as the rule's own, and whether another party has
changed the row since. A mapping is blamed on somebody else exactly where it
has another fingerprint than the row that was last confirmed, which is not
the row that was last written.
-/

namespace LabProbe.Stun

open Py Py.Json Hub Check Runs

/-- What the router answers to a call on a mapping: what reading raises, if it
does, the list after the write, and what `write_and_verify` reads back or raises. -/
structure MappingCall where
  read : Option String
  after : Entries
  answer : Except String Entries

def MappingCall.router (call : MappingCall) (table : Entries) : Router :=
  { read := call.read.elim (.ok table) .error, verified := fun _ => call.answer }

/-- Another party has changed the list, a rule is seen to, by a request or on
a status report, or the mapping of a rule is removed. -/
inductive MappingEvent where
  | changed (table : Entries)
  | ensured (rule : Entries) (call : MappingCall) (reporting : Bool)
  | removed (id : String) (call : MappingCall)

/-- The list of the router and the bindings; for each rule the row that was
last confirmed, and whether another party has changed its row since. -/
structure Mappings where
  table : Entries
  bindings : Bindings := []
  own : String → Option Entries := fun _ => none
  foreign : String → Bool := fun _ => false

inductive MappingPlan where
  | idle
  | blame (row : Entries)
  | adopt (row expected : Entries)
  | write (write : Write) (expected : Entries)

section
variable [Unicode] [Digest]

def mappingRow (table : Entries) (id : String) : Option Entries :=
  findNativeMapping table (mappingName id)

def ensurePlan (table : Entries) (read : Option String) (rule : Entries) (bindings : Bindings) :
    MappingPlan :=
  if !isNativeForward rule then .idle else
    match expectedNativeMapping rule, read with
    | .ok expected, none =>
      match findNativeMapping table (get expected "ruleName").toStr with
      | some existing =>
        if edited (bindingOf bindings (ruleKey rule)) existing then .blame existing
        else if matchesRow existing expected then .adopt existing expected
        else .write (.update existing expected) expected
      | none => .write (.add expected) expected
    | _, _ => .idle

def confirmedRow (expected : Entries) : Except String Entries → Option Entries
  | .ok snapshot => (findNativeMapping snapshot (get expected "ruleName").toStr).filter
      fun row => matchesRow row expected
  | .error _ => none

/-- The row that a call takes for the rule's own. -/
def MappingPlan.taken (answer : Except String Entries) : MappingPlan → Option Entries
  | .adopt row _ => some row
  | .write _ expected => confirmedRow expected answer
  | _ => none

def MappingPlan.left (table after : Entries) : MappingPlan → Entries
  | .write _ _ => after
  | _ => table

/-- The bindings after a call, which a status report completes by what the call raises. -/
def ensureBindings (router : Router) (rule : Entries) (bindings : Bindings) (reporting : Bool) :
    Bindings :=
  if reporting then secureMapping router rule bindings
  else match ensureNativeMapping router rule bindings with
    | .ok outcome => outcome.bindings
    | .error _ => bindings

def boundName (bindings : Bindings) (id : String) : String :=
  text (get (bindingOf bindings id) "ruleName")

def foundRow (table : Entries) (bindings : Bindings) (id : String) : Option Entries :=
  if bindingOf bindings id = [] then none else findNativeMapping table (boundName bindings id)

def fingerprinted (bindings : Bindings) (id : String) (row : Entries) : Bool :=
  (get (bindingOf bindings id) "fingerprint").eq (.str (ruleFingerprint row))

def Mappings.deletes (s : Mappings) (id : String) (call : MappingCall) : Bool :=
  call.read.isNone && (foundRow s.table s.bindings id).any (fingerprinted s.bindings id)

def Mappings.step (s : Mappings) : MappingEvent → Mappings
  | .changed table =>
    { s with
      table
      foreign := fun id => s.foreign id || mappingRow s.table id != mappingRow table id }
  | .ensured rule call reporting =>
    let id := ruleKey rule
    let plan := ensurePlan s.table call.read rule s.bindings
    let taken := plan.taken call.answer
    let table := plan.left s.table call.after
    { table
      bindings := ensureBindings (call.router s.table) rule s.bindings reporting
      own := if taken.isSome then Function.update s.own id taken else s.own
      foreign := if taken.isSome || mappingRow s.table id != mappingRow table id then
          Function.update s.foreign id false else s.foreign }
  | .removed id call =>
    let table := if s.deletes id call then call.after else s.table
    match removeNativeMapping (call.router s.table) id s.bindings with
    | .ok bindings =>
      { table, bindings, own := Function.update s.own id none
        foreign := Function.update s.foreign id false }
    | .error _ =>
      { s with
        table
        foreign := if mappingRow s.table id != mappingRow table id then
          Function.update s.foreign id false else s.foreign }

-- ---------------------------------------------------------------------------
-- What seeing to a mapping does
-- ---------------------------------------------------------------------------

variable {s : Mappings} {table rule expected row mine : Entries} {bindings : Bindings} {id : String}
  {call : MappingCall} {reporting : Bool}

theorem step_ensured_own (s : Mappings) (rule : Entries) (call : MappingCall) (reporting : Bool) :
    (s.step (.ensured rule call reporting)).own =
      if ((ensurePlan s.table call.read rule s.bindings).taken call.answer).isSome then
        Function.update s.own (ruleKey rule)
          ((ensurePlan s.table call.read rule s.bindings).taken call.answer) else s.own := by
  simp only [Mappings.step]

theorem step_ensured_foreign (s : Mappings) (rule : Entries) (call : MappingCall) (reporting : Bool) :
    (s.step (.ensured rule call reporting)).foreign =
      if ((ensurePlan s.table call.read rule s.bindings).taken call.answer).isSome ||
          mappingRow s.table (ruleKey rule) !=
            mappingRow ((ensurePlan s.table call.read rule s.bindings).left s.table call.after)
              (ruleKey rule) then
        Function.update s.foreign (ruleKey rule) false else s.foreign := by
  simp only [Mappings.step]

theorem step_ensured_table (s : Mappings) (rule : Entries) (call : MappingCall) (reporting : Bool) :
    (s.step (.ensured rule call reporting)).table =
      (ensurePlan s.table call.read rule s.bindings).left s.table call.after := by
  simp only [Mappings.step]

inductive Ensures (id : String) (bindings : Bindings) (answer : Except String Entries) :
    MappingPlan → Except String Outcome → Prop where
  | kept (result : Entries) (h : get result "state" ≠ .str "manual_change") :
    Ensures id bindings answer .idle (.ok ⟨result, bindings⟩)
  | raised (e : String) : Ensures id bindings answer .idle (.error e)
  | blamed (row : Entries) (message : String) :
    Ensures id bindings answer (.blame row) (.ok ⟨refusal "manual_change" message,
      Dict.set bindings id (Dict.update (bindingOf bindings id) (refusal "manual_change" message))⟩)
  | adopted (row expected : Entries) :
    Ensures id bindings answer (.adopt row expected) (.ok ⟨readyMapping expected row,
      Dict.set bindings id (readyMapping expected row)⟩)
  | written (write : Write) (expected : Entries) (message : String) :
    Ensures id bindings answer (.write write expected) (answer.map fun snapshot =>
      confirmMapping expected (bindingOf bindings id) snapshot message id bindings)

theorem ensures_ensure (table rule : Entries) (bindings : Bindings) (call : MappingCall) :
    Ensures (ruleKey rule) bindings call.answer (ensurePlan table call.read rule bindings)
      (ensureNativeMapping (call.router table) rule bindings) := by
  have hwritten : ∀ (write : Write) (confirm : Entries → Outcome),
      ((call.router table).verified write >>= fun snapshot => .ok (confirm snapshot)) =
        call.answer.map confirm := fun write confirm => by
    change (call.answer >>= _) = _
    cases call.answer <;> rfl
  unfold ensurePlan ensureNativeMapping
  cases isNativeForward rule with
  | false => exact .kept _ (by decide)
  | true =>
    simp only [Bool.not_true, Bool.false_eq_true, if_false]
    cases expectedNativeMapping rule with
    | error e => exact .raised e
    | ok expected =>
      cases hread : call.read with
      | some e =>
        have herror : (call.router table).read = .error e := by simp [MappingCall.router, hread]
        simp only [herror]
        exact .raised e
      | none =>
        have hok : (call.router table).read = .ok table := by simp [MappingCall.router, hread]
        simp only [hok]
        change Ensures _ _ _ _ (match findNativeMapping table (get expected "ruleName").toStr with
          | some existing => _
          | none => _)
        cases findNativeMapping table (get expected "ruleName").toStr with
        | none =>
          dsimp only
          rw [hwritten]
          exact .written _ expected _
        | some existing =>
          dsimp only
          split
          · exact .blamed existing _
          · split
            · exact .adopted existing expected
            · rw [hwritten]
              exact .written _ expected _

theorem confirmMapping_cases (expected binding snapshot : Entries) (message id : String)
    (bindings : Bindings) :
    (∃ row, confirmedRow expected (.ok snapshot) = some row ∧
      confirmMapping expected binding snapshot message id bindings =
        ⟨readyMapping expected row, Dict.set bindings id (readyMapping expected row)⟩) ∨
    (confirmedRow expected (.ok snapshot) = none ∧
      confirmMapping expected binding snapshot message id bindings =
        ⟨refusal "verify_failed" message,
          Dict.set bindings id (Dict.update binding (refusal "verify_failed" message))⟩) := by
  have hconfirmed : confirmedRow expected (.ok snapshot) =
      (findNativeMapping snapshot (get expected "ruleName").toStr).filter
        fun row => matchesRow row expected := rfl
  rw [hconfirmed, confirmMapping]
  cases findNativeMapping snapshot (get expected "ruleName").toStr with
  | none => exact .inr ⟨rfl, rfl⟩
  | some row =>
    by_cases hmatches : matchesRow row expected = true
    · exact .inl ⟨row, by simp [hmatches], by simp [hmatches]⟩
    · exact .inr ⟨by simp [hmatches], by simp [hmatches]⟩

inductive Planned (table rule : Entries) (bindings : Bindings) : MappingPlan → Prop where
  | idle : Planned table rule bindings .idle
  | blame (expected row : Entries) (hexpected : expectedNativeMapping rule = .ok expected)
    (hrow : findNativeMapping table (get expected "ruleName").toStr = some row)
    (hedited : edited (bindingOf bindings (ruleKey rule)) row = true) :
    Planned table rule bindings (.blame row)
  | adopt (expected row : Entries) (hexpected : expectedNativeMapping rule = .ok expected)
    (hrow : findNativeMapping table (get expected "ruleName").toStr = some row)
    (hedited : edited (bindingOf bindings (ruleKey rule)) row = false) :
    Planned table rule bindings (.adopt row expected)
  | update (expected row : Entries) (hexpected : expectedNativeMapping rule = .ok expected)
    (hrow : findNativeMapping table (get expected "ruleName").toStr = some row)
    (hedited : edited (bindingOf bindings (ruleKey rule)) row = false) :
    Planned table rule bindings (.write (.update row expected) expected)
  | add (expected : Entries) (hexpected : expectedNativeMapping rule = .ok expected)
    (hrow : findNativeMapping table (get expected "ruleName").toStr = none) :
    Planned table rule bindings (.write (.add expected) expected)

theorem planned_ensurePlan (table rule : Entries) (bindings : Bindings) (read : Option String) :
    Planned table rule bindings (ensurePlan table read rule bindings) := by
  unfold ensurePlan
  split
  · exact .idle
  · split
    · rename_i expected hexpected
      split
      · rename_i row hrow
        split
        · rename_i hedited
          exact .blame expected row hexpected hrow hedited
        · rename_i hedited
          have hedited := Bool.not_eq_true _ ▸ hedited
          split
          · exact .adopt expected row hexpected hrow hedited
          · exact .update expected row hexpected hrow hedited
      · rename_i hrow
        exact .add expected hexpected hrow
    · exact .idle

/-- The bindings after a call: the row that is taken is bound, or the binding
is told a state, or nothing is saved. -/
theorem ensureBindings_cases (table rule : Entries) (bindings : Bindings) (call : MappingCall)
    (reporting : Bool) :
    (∃ expected row, (ensurePlan table call.read rule bindings).taken call.answer = some row ∧
      expectedNativeMapping rule = .ok expected ∧
      ensureBindings (call.router table) rule bindings reporting =
        Dict.set bindings (ruleKey rule) (readyMapping expected row)) ∨
    ((ensurePlan table call.read rule bindings).taken call.answer = none ∧
      (ensureBindings (call.router table) rule bindings reporting = bindings ∨ ∃ state message,
        ensureBindings (call.router table) rule bindings reporting = Dict.set bindings (ruleKey rule)
          (Dict.update (bindingOf bindings (ruleKey rule)) (refusal state message)))) := by
  have hraised : ∀ e, ensureNativeMapping (call.router table) rule bindings = .error e →
      ensureBindings (call.router table) rule bindings reporting = bindings ∨ ∃ state message,
        ensureBindings (call.router table) rule bindings reporting = Dict.set bindings (ruleKey rule)
          (Dict.update (bindingOf bindings (ruleKey rule)) (refusal state message)) := fun e he => by
    unfold ensureBindings secureMapping
    rw [he]
    split
    · exact .inr ⟨"error", e, rfl⟩
    · exact .inl rfl
  have hreturned : ∀ outcome, ensureNativeMapping (call.router table) rule bindings = .ok outcome →
      ensureBindings (call.router table) rule bindings reporting = outcome.bindings := fun outcome ho => by
    unfold ensureBindings secureMapping
    rw [ho]
    exact ite_self _
  have hplanned := planned_ensurePlan table rule bindings call.read
  have hensures := ensures_ensure table rule bindings call
  generalize ensurePlan table call.read rule bindings = plan at hplanned hensures ⊢
  generalize hresult : ensureNativeMapping (call.router table) rule bindings = result at hensures
  cases hensures with
  | kept answer h => exact .inr ⟨rfl, .inl (hreturned _ hresult)⟩
  | raised e => exact .inr ⟨rfl, hraised e hresult⟩
  | blamed row message => exact .inr ⟨rfl, .inr ⟨_, message, hreturned _ hresult⟩⟩
  | adopted row expected =>
    cases hplanned with
    | adopt _ _ hexpected => exact .inl ⟨expected, row, rfl, hexpected, hreturned _ hresult⟩
  | written write expected message =>
    have hexpected : expectedNativeMapping rule = .ok expected := by
      cases hplanned with
      | update _ _ hexpected | add _ hexpected => exact hexpected
    have htaken : (MappingPlan.write write expected).taken call.answer =
        confirmedRow expected call.answer := rfl
    rw [htaken]
    cases hanswer : call.answer with
    | error e =>
      rw [hanswer] at hresult
      exact .inr ⟨rfl, hraised e hresult⟩
    | ok snapshot =>
      rw [hanswer] at hresult
      have hbindings := hreturned _ hresult
      dsimp only at hbindings
      rcases confirmMapping_cases expected (bindingOf bindings (ruleKey rule)) snapshot message
        (ruleKey rule) bindings with ⟨row, hrow, hconfirm⟩ | ⟨hrow, hconfirm⟩
      · rw [hconfirm] at hbindings
        exact .inl ⟨expected, row, hrow, hexpected, hbindings⟩
      · rw [hconfirm] at hbindings
        exact .inr ⟨hrow, .inr ⟨_, message, hbindings⟩⟩

-- ---------------------------------------------------------------------------
-- What the bindings remember
-- ---------------------------------------------------------------------------

omit [Unicode] [Digest] in
theorem bindingOf_set (bindings : Bindings) (id other : String) (binding : Entries) :
    bindingOf (Dict.set bindings id binding) other =
      if id = other then binding else bindingOf bindings other := by
  rw [bindingOf, bindingOf, Dict.get?_set]
  split <;> rfl

omit [Unicode] [Digest] in
theorem bindingOf_erase (bindings : Bindings) (id other : String) :
    bindingOf (Dict.erase bindings id) other = if id = other then [] else bindingOf bindings other := by
  rw [bindingOf, bindingOf, Dict.get?_erase]
  split <;> rfl

/-- An identifier that stands in the name of the mapping as it is. -/
def Named (id : String) : Prop := strip (mappingName id) = mappingName id

/-- The rules are stored ones. -/
def MappingEvent.Named : MappingEvent → Prop
  | .ensured rule _ _ => ∃ id, Dict.get? rule "id" = some (.str id) ∧ Stun.Named id
  | _ => True

/-- A binding has the name and the fingerprint of the row that was last
confirmed, or neither. -/
structure Mappings.Sound (s : Mappings) : Prop where
  owned : ∀ id row, s.own id = some row → Named id ∧
    get (bindingOf s.bindings id) "ruleName" = .str (mappingName id) ∧
      get (bindingOf s.bindings id) "fingerprint" = .str (ruleFingerprint row)
  unowned : ∀ id, s.own id = none → get (bindingOf s.bindings id) "ruleName" = .null ∧
    get (bindingOf s.bindings id) "fingerprint" = .null

omit [Unicode] [Digest] in
theorem ruleKey_of_get (h : Dict.get? rule "id" = some (.str id)) : ruleKey rule = id := by
  rw [ruleKey, Json.get, h]
  rfl

omit [Digest] in
theorem expected_ruleName (hexpected : expectedNativeMapping rule = .ok expected)
    (hid : Dict.get? rule "id" = some (.str id)) : get expected "ruleName" = .str (mappingName id) := by
  simp only [expectedNativeMapping, bind_eq_ok, Except.ok.injEq] at hexpected
  obtain ⟨v, hv, _, -, _, -, _, -, _, -, rfl⟩ := hexpected
  rw [item, hid] at hv
  cases hv
  rfl

omit [Unicode] [Digest] in
theorem get_refused {binding : Entries} {state message key : String} (hstate : key ≠ "state")
    (hmessage : key ≠ "message") :
    get (Dict.update binding (refusal state message)) key = get binding key :=
  get_update_of_notMem binding (by simp [refusal, Dict.keys, hstate, hmessage])

theorem mappings_sound_ensured (h : s.Sound) (hnamed : (MappingEvent.ensured rule call reporting).Named) :
    (s.step (.ensured rule call reporting)).Sound := by
  obtain ⟨id, hid, hname⟩ := hnamed
  have hkey := ruleKey_of_get hid
  have hnext : (s.step (.ensured rule call reporting)).bindings =
      ensureBindings (call.router s.table) rule s.bindings reporting := rfl
  have hown := step_ensured_own s rule call reporting
  rcases ensureBindings_cases s.table rule s.bindings call reporting with
    ⟨expected, row, htaken, hexpected, hbindings⟩ | ⟨htaken, hbindings⟩
  · rw [htaken, Option.isSome_some, if_pos rfl, hkey] at hown
    rw [hbindings, hkey] at hnext
    constructor
    · intro other mine hmine
      rw [hown, Function.update_apply] at hmine
      rw [hnext, bindingOf_set]
      by_cases heq : other = id
      · subst heq
        rw [if_pos rfl] at hmine ⊢
        cases hmine
        have hruleName := expected_ruleName hexpected hid
        exact ⟨hname, hruleName, rfl⟩
      · rw [if_neg heq] at hmine
        rw [if_neg (Ne.symm heq)]
        exact h.owned other mine hmine
    · intro other hnone
      rw [hown, Function.update_apply] at hnone
      rw [hnext, bindingOf_set]
      by_cases heq : other = id
      · rw [if_pos heq] at hnone
        cases hnone
      · rw [if_neg heq] at hnone
        rw [if_neg (Ne.symm heq)]
        exact h.unowned other hnone
  · rw [htaken, Option.isSome_none, if_neg Bool.false_ne_true] at hown
    -- a refusal leaves the name and the fingerprint of the binding
    have hget : ∀ other, ∀ key ∈ ["ruleName", "fingerprint"],
        get (bindingOf (s.step (.ensured rule call reporting)).bindings other) key =
          get (bindingOf s.bindings other) key := by
      intro other key hmem
      rcases hbindings with hkept | ⟨state, message, hset⟩
      · rw [hnext, hkept]
      · rw [hnext, hset, bindingOf_set]
        split
        · rename_i heq
          subst heq
          have hkeys : key ≠ "state" ∧ key ≠ "message" := by
            rcases List.mem_pair.mp hmem with rfl | rfl <;> decide
          exact get_refused hkeys.1 hkeys.2
        · rfl
    constructor
    · intro other mine hmine
      rw [hown] at hmine
      rw [hget other "ruleName" (by simp), hget other "fingerprint" (by simp)]
      exact h.owned other mine hmine
    · intro other hnone
      rw [hown] at hnone
      rw [hget other "ruleName" (by simp), hget other "fingerprint" (by simp)]
      exact h.unowned other hnone

theorem removeNativeMapping_ok {router : Router} {left : Bindings}
    (h : removeNativeMapping router id bindings = .ok left) :
    left = Dict.erase bindings id ∨ left = bindings ∧ bindingOf bindings id = [] := by
  unfold removeNativeMapping at h
  dsimp only at h
  split at h
  · rename_i hempty
    exact .inr ⟨(Except.ok.inj h).symm, hempty⟩
  · simp only [bind_eq_ok] at h
    obtain ⟨current, -, h⟩ := h
    split at h
    · simp only [bind_eq_ok] at h
      obtain ⟨_, -, _, -, h⟩ := h
      exact .inl (Except.ok.inj h).symm
    · exact .inl (Except.ok.inj h).symm

theorem mappings_sound_removed (h : s.Sound) (id : String) (call : MappingCall) :
    (s.step (.removed id call)).Sound := by
  unfold Mappings.step
  dsimp only
  split
  · rename_i left hleft
    have hbinding : ∀ other, bindingOf left other =
        if other = id then [] else bindingOf s.bindings other := by
      intro other
      rcases removeNativeMapping_ok hleft with rfl | ⟨rfl, hempty⟩
      · rw [bindingOf_erase]
        simp only [eq_comm]
      · split
        · rename_i heq
          rw [heq, hempty]
        · rfl
    constructor
    · intro other mine hmine
      dsimp only at hmine ⊢
      rw [Function.update_apply] at hmine
      rw [hbinding]
      by_cases heq : other = id
      · rw [if_pos heq] at hmine
        cases hmine
      · rw [if_neg heq] at hmine ⊢
        exact h.owned other mine hmine
    · intro other hnone
      dsimp only at hnone ⊢
      rw [Function.update_apply] at hnone
      rw [hbinding]
      by_cases heq : other = id
      · rw [if_pos heq]
        exact ⟨rfl, rfl⟩
      · rw [if_neg heq] at hnone ⊢
        exact h.unowned other hnone
  · exact ⟨h.owned, h.unowned⟩

omit [Unicode] in
theorem mappings_sound_start (table : Entries) : ({ table } : Mappings).Sound :=
  ⟨fun _ _ h => (by cases h), fun _ _ => ⟨rfl, rfl⟩⟩

theorem mappings_sound_step {e : MappingEvent} (h : s.Sound) (hnamed : e.Named) : (s.step e).Sound := by
  cases e with
  | changed table => exact ⟨h.owned, h.unowned⟩
  | ensured rule call reporting => exact mappings_sound_ensured h hnamed
  | removed id call => exact mappings_sound_removed h id call

-- ---------------------------------------------------------------------------
-- What is reported, and what is written over
-- ---------------------------------------------------------------------------

/-- A call blames its row on somebody else: it reports so, or it refuses to
remove the row whatever the router would answer. -/
def Mappings.Blames (s : Mappings) : MappingEvent → Prop
  | .changed _ => False
  | .ensured rule call _ => ∃ outcome, ensureNativeMapping (call.router s.table) rule s.bindings =
      .ok outcome ∧ get outcome.result "state" = .str "manual_change"
  | .removed id call => call.read = none ∧ ∀ verified : Write → Except String Entries,
      (removeNativeMapping { read := .ok s.table, verified } id s.bindings).isOk = false

/-- The row of a rule is not the one that was last confirmed. -/
def Mappings.Differs (s : Mappings) (id : String) : Prop :=
  ∃ mine row, s.own id = some mine ∧ mappingRow s.table id = some row ∧
    ruleFingerprint row ≠ ruleFingerprint mine

def Looks (rule : Entries) (call : MappingCall) : Prop :=
  isNativeForward rule = true ∧ (expectedNativeMapping rule).isOk = true ∧ call.read = none

/-- A row is blamed exactly if it differs from the one that was last confirmed,
and a row is written over or deleted only if it does not. A binding without
such a row refuses its removal while the router shows a mapping without name. -/
def Mappings.Accounted (s : Mappings) : MappingEvent → Prop
  | .changed _ => True
  | .ensured rule call reporting =>
    (s.Blames (.ensured rule call reporting) ↔ Looks rule call ∧ s.Differs (ruleKey rule)) ∧
      ∀ write expected, ensurePlan s.table call.read rule s.bindings = .write write expected →
        (∃ old, write = .update old expected ∧ mappingRow s.table (ruleKey rule) = some old ∧
            ¬ s.Differs (ruleKey rule)) ∨
          write = .add expected ∧ mappingRow s.table (ruleKey rule) = none
  | .removed id call =>
    (s.Blames (.removed id call) ↔ call.read = none ∧ (s.Differs id ∨ s.own id = none ∧
        bindingOf s.bindings id ≠ [] ∧ (findNativeMapping s.table "").isSome = true)) ∧
      (s.deletes id call = true → ∃ mine row, s.own id = some mine ∧
        mappingRow s.table id = some row ∧ ruleFingerprint row = ruleFingerprint mine)

omit [Unicode] in
theorem edited_iff (hdigest : ∀ v, Digest.sha256 v ≠ "") (h : s.Sound) (id : String) (row : Entries) :
    edited (bindingOf s.bindings id) row = true ↔
      ∃ mine, s.own id = some mine ∧ ruleFingerprint row ≠ ruleFingerprint mine := by
  unfold edited
  cases hown : s.own id with
  | none =>
    rw [(h.unowned id hown).2]
    simp [truthy]
  | some mine =>
    have htruthy : (Json.str (ruleFingerprint mine)).truthy = true := bne_iff_ne.mpr (hdigest _)
    rw [(h.owned id mine hown).2.2, htruthy, Bool.true_and, Bool.not_eq_true', ← Bool.not_eq_true,
      str_eq_str]
    constructor
    · exact fun hdiffers => ⟨mine, rfl, Ne.symm hdiffers⟩
    · rintro ⟨_, hmine, hdiffers⟩
      cases hmine
      exact Ne.symm hdiffers

omit [Digest] in
theorem toStr_ruleName (hexpected : expectedNativeMapping rule = .ok expected)
    (hid : Dict.get? rule "id" = some (.str id)) :
    findNativeMapping table (get expected "ruleName").toStr = mappingRow table id := by
  rw [expected_ruleName hexpected hid]
  rfl

theorem plan_blame_iff (hid : Dict.get? rule "id" = some (.str id)) :
    (∃ row, ensurePlan table call.read rule bindings = .blame row) ↔ Looks rule call ∧
      ∃ row, mappingRow table id = some row ∧ edited (bindingOf bindings id) row = true := by
  have hplanned := planned_ensurePlan table rule bindings call.read
  have hkey := ruleKey_of_get hid
  constructor
  · rintro ⟨row, hplan⟩
    refine ⟨?_, ?_⟩
    · unfold ensurePlan at hplan
      split at hplan
      · cases hplan
      · rename_i hnative
        split at hplan
        · rename_i expected hexpected hread
          refine ⟨by simpa using hnative, ?_, hread⟩
          rw [hexpected]
          rfl
        · cases hplan
    · rw [hplan] at hplanned
      cases hplanned with
      | blame expected row hexpected hrow hedited =>
        rw [toStr_ruleName hexpected hid] at hrow
        exact ⟨row, hrow, hkey ▸ hedited⟩
  · rintro ⟨⟨hnative, hok, hread⟩, row, hrow, hedited⟩
    cases hexpected : expectedNativeMapping rule with
    | error e =>
      rw [hexpected] at hok
      cases hok
    | ok expected =>
      rw [← toStr_ruleName hexpected hid] at hrow
      refine ⟨row, ?_⟩
      unfold ensurePlan
      rw [if_neg (by simp [hnative]), hexpected, hread]
      dsimp only
      rw [hrow]
      dsimp only
      rw [hkey, if_pos hedited]

theorem blames_iff_plan : s.Blames (.ensured rule call reporting) ↔
    ∃ row, ensurePlan s.table call.read rule s.bindings = .blame row := by
  have hensures := ensures_ensure s.table rule s.bindings call
  have hblames : s.Blames (.ensured rule call reporting) ↔ ∃ outcome,
      ensureNativeMapping (call.router s.table) rule s.bindings = .ok outcome ∧
        get outcome.result "state" = .str "manual_change" := Iff.rfl
  rw [hblames]
  generalize ensurePlan s.table call.read rule s.bindings = plan at hensures ⊢
  generalize ensureNativeMapping (call.router s.table) rule s.bindings = result at hensures ⊢
  have hready : ∀ expected row, get (readyMapping expected row) "state" ≠ .str "manual_change" :=
    fun expected row => by
      have hstate : get (readyMapping expected row) "state" = .str "ready" := rfl
      rw [hstate]
      decide
  cases hensures with
  | kept result h => simp [h]
  | raised e => simp
  | blamed row message => exact iff_of_true ⟨_, rfl, rfl⟩ ⟨row, rfl⟩
  | adopted row expected => simp [hready]
  | written write expected message =>
    cases call.answer with
    | error e => simp [Except.map]
    | ok snapshot =>
      refine iff_of_false ?_ (by simp)
      rintro ⟨outcome, heq, hstate⟩
      have heq : confirmMapping expected (bindingOf s.bindings (ruleKey rule)) snapshot message
        (ruleKey rule) s.bindings = outcome := Except.ok.inj heq
      rcases confirmMapping_cases expected (bindingOf s.bindings (ruleKey rule)) snapshot message
        (ruleKey rule) s.bindings with ⟨row, -, hconfirm⟩ | ⟨-, hconfirm⟩
      · rw [← heq, hconfirm] at hstate
        exact hready expected row hstate
      · rw [← heq, hconfirm] at hstate
        have hfailed : get (refusal "verify_failed" message) "state" = .str "verify_failed" := rfl
        rw [hfailed] at hstate
        exact absurd hstate (by decide)

theorem remove_refused_iff (table : Entries) (bindings : Bindings) (id : String) :
    (∀ verified : Write → Except String Entries,
      (removeNativeMapping { read := .ok table, verified } id bindings).isOk = false) ↔
      ∃ row, foundRow table bindings id = some row ∧ fingerprinted bindings id row = false := by
  unfold removeNativeMapping foundRow fingerprinted boundName
  dsimp only
  split
  · simp [Except.isOk, Except.toBool]
  · change (∀ verified : Write → Except String Entries, (match findNativeMapping table
      (text (get (bindingOf bindings id) "ruleName")) with
      | some row => _
      | none => _ : Except String Bindings).isOk = false) ↔ _
    cases findNativeMapping table (text (get (bindingOf bindings id) "ruleName")) with
    | none => simp [Except.isOk, Except.toBool]
    | some row =>
      dsimp only
      simp only [Option.some.injEq, exists_eq_left']
      cases (get (bindingOf bindings id) "fingerprint").eq (.str (ruleFingerprint row)) with
      | false => exact iff_of_true (fun _ => rfl) rfl
      | true => exact iff_of_false (fun h => by cases h fun _ => .ok []) (by simp)

theorem accounted_ensured (hdigest : ∀ v, Digest.sha256 v ≠ "") (h : s.Sound)
    (hnamed : (MappingEvent.ensured rule call reporting).Named) :
    s.Accounted (.ensured rule call reporting) := by
  obtain ⟨id, hid, -⟩ := hnamed
  have hkey := ruleKey_of_get hid
  have hdiffers : (∃ row, mappingRow s.table id = some row ∧
      edited (bindingOf s.bindings id) row = true) ↔ s.Differs id := by
    simp only [edited_iff hdigest h]
    constructor
    · rintro ⟨row, hrow, mine, hmine, hne⟩
      exact ⟨mine, row, hmine, hrow, hne⟩
    · rintro ⟨mine, row, hmine, hrow, hne⟩
      exact ⟨row, hrow, mine, hmine, hne⟩
  constructor
  · rw [blames_iff_plan, plan_blame_iff hid, hdiffers, hkey]
  · intro write expected hplan
    have hplanned := planned_ensurePlan s.table rule s.bindings call.read
    rw [hplan] at hplanned
    cases hplanned with
    | update expected row hexpected hrow hedited =>
      rw [toStr_ruleName hexpected hid] at hrow
      rw [hkey] at hedited ⊢
      refine .inl ⟨row, rfl, hrow, fun hd => ?_⟩
      obtain ⟨row', hrow', hedited'⟩ := hdiffers.mpr hd
      cases hrow.symm.trans hrow'
      rw [hedited] at hedited'
      cases hedited'
    | add expected hexpected hrow =>
      rw [toStr_ruleName hexpected hid] at hrow
      exact .inr ⟨rfl, hkey.symm ▸ hrow⟩

omit [Unicode] in
theorem fingerprinted_owned (h : s.Sound) (hown : s.own id = some mine) (row : Entries) :
    fingerprinted s.bindings id row = decide (ruleFingerprint row = ruleFingerprint mine) := by
  rw [fingerprinted, (h.owned id mine hown).2.2, Bool.eq_iff_iff, str_eq_str, decide_eq_true_iff,
    eq_comm]

omit [Unicode] in
theorem fingerprinted_unowned (h : s.Sound) (hown : s.own id = none) (row : Entries) :
    fingerprinted s.bindings id row = false := by
  rw [fingerprinted, (h.unowned id hown).2]
  rfl

theorem foundRow_owned (h : s.Sound) (hown : s.own id = some mine) :
    foundRow s.table s.bindings id = mappingRow s.table id := by
  obtain ⟨hname, hruleName, -⟩ := h.owned id mine hown
  have hbinding : bindingOf s.bindings id ≠ [] := fun hempty => by
    rw [hempty] at hruleName
    cases hruleName
  rw [foundRow, if_neg hbinding, boundName, hruleName, text_str, hname]
  rfl

theorem accounted_removed (h : s.Sound) (id : String) (call : MappingCall) :
    s.Accounted (.removed id call) := by
  have hblames : s.Blames (.removed id call) ↔ call.read = none ∧
      ∃ row, foundRow s.table s.bindings id = some row ∧ fingerprinted s.bindings id row = false :=
    and_congr_right' (remove_refused_iff s.table s.bindings id)
  constructor
  · rw [hblames]
    refine and_congr_right' ?_
    cases hown : s.own id with
    | none =>
      obtain ⟨hruleName, -⟩ := h.unowned id hown
      have hname : boundName s.bindings id = "" := by
        rw [boundName, hruleName]
        exact strip_empty
      have hsame : ¬ s.Differs id := fun ⟨mine, _, hmine, _⟩ => by
        rw [hown] at hmine
        cases hmine
      simp only [foundRow, hname, fingerprinted_unowned h hown, and_true, hsame, false_or, true_and]
      split
      · rename_i hempty
        simp [hempty]
      · rename_i hbinding
        simp [hbinding, Option.isSome_iff_exists]
    | some mine =>
      rw [foundRow_owned h hown]
      simp only [fingerprinted_owned h hown, reduceCtorEq, false_and, or_false,
        Mappings.Differs, hown, Option.some.injEq, exists_and_left, exists_eq_left',
        decide_eq_false_iff_not]
  · intro hdeletes
    obtain ⟨-, hrow⟩ := Bool.and_eq_true_iff.mp hdeletes
    obtain ⟨row, hrow, hlike⟩ := Option.any_eq_true _ _ |>.mp hrow
    cases hown : s.own id with
    | none =>
      rw [fingerprinted_unowned h hown] at hlike
      cases hlike
    | some mine =>
      rw [foundRow_owned h hown] at hrow
      rw [fingerprinted_owned h hown, decide_eq_true_iff] at hlike
      exact ⟨mine, row, rfl, hrow, hlike⟩

theorem accounted {e : MappingEvent} (hdigest : ∀ v, Digest.sha256 v ≠ "") (h : s.Sound)
    (hnamed : e.Named) : s.Accounted e := by
  cases e with
  | changed table => exact trivial
  | ensured rule call reporting => exact accounted_ensured hdigest h hnamed
  | removed id call => exact accounted_removed h id call

-- ---------------------------------------------------------------------------
-- A router that does what is read back
-- ---------------------------------------------------------------------------

def Leaves (id : String) (table after : Entries) : Prop :=
  ∀ other, other ≠ id → mappingRow after other = mappingRow table other

/-- A write is either confirmed by what is read back, which is what the router
then has, or leaves the row of the rule; a removal takes it away or leaves it. -/
def Mappings.Settled (s : Mappings) : MappingEvent → Prop
  | .changed _ => True
  | .ensured rule call _ =>
    ∀ write expected, ensurePlan s.table call.read rule s.bindings = .write write expected →
      Leaves (ruleKey rule) s.table call.after ∧
      (∀ snapshot, call.answer = .ok snapshot → snapshot = call.after) ∧
      (confirmedRow expected call.answer = none →
        mappingRow call.after (ruleKey rule) = mappingRow s.table (ruleKey rule))
  | .removed id call => s.deletes id call = true → Leaves id s.table call.after ∧
      (mappingRow call.after id = none ∨ mappingRow call.after id = mappingRow s.table id)

/-- A row that no one else has changed since is the one that was last confirmed. -/
def Mappings.Kept (s : Mappings) : Prop :=
  ∀ id mine row, s.own id = some mine → s.foreign id = false → mappingRow s.table id = some row →
    row = mine

omit [Digest] in
theorem kept_of {s' : Mappings} (h : s.Kept) (id : String) (hleaves : Leaves id s.table s'.table)
    (hothers : ∀ other, other ≠ id → s'.own other = s.own other ∧ s'.foreign other = s.foreign other)
    (hid : ∀ mine row, s'.own id = some mine → s'.foreign id = false →
      mappingRow s'.table id = some row → row = mine) : s'.Kept := by
  intro other mine row hmine hforeign hrow
  by_cases heq : other = id
  · subst heq
    exact hid mine row hmine hforeign hrow
  · rw [(hothers other heq).1] at hmine
    rw [(hothers other heq).2] at hforeign
    rw [hleaves other heq] at hrow
    exact h other mine row hmine hforeign hrow

omit [Digest] in
theorem confirmedRow_eq_some {answer : Except String Entries}
    (hid : Dict.get? rule "id" = some (.str id)) (hexpected : expectedNativeMapping rule = .ok expected)
    (h : confirmedRow expected answer = some row) :
    ∃ snapshot, answer = .ok snapshot ∧ mappingRow snapshot id = some row := by
  cases answer with
  | error e => cases h
  | ok snapshot =>
    obtain ⟨hrow, -⟩ := Option.filter_eq_some_iff.mp h
    rw [toStr_ruleName hexpected hid] at hrow
    exact ⟨snapshot, rfl, hrow⟩

/-- What a settled call leaves in the list: the rows of the others, and of the
rule the row it takes, or the one it had. -/
theorem table_ensured (hid : Dict.get? rule "id" = some (.str id))
    (hsettled : s.Settled (.ensured rule call reporting)) :
    Leaves id s.table (s.step (.ensured rule call reporting)).table ∧
      mappingRow (s.step (.ensured rule call reporting)).table id =
        ((ensurePlan s.table call.read rule s.bindings).taken call.answer).or
          (mappingRow s.table id) := by
  have hkey := ruleKey_of_get hid
  have hplanned := planned_ensurePlan s.table rule s.bindings call.read
  have hsettled : ∀ write expected,
      ensurePlan s.table call.read rule s.bindings = .write write expected →
      Leaves (ruleKey rule) s.table call.after ∧
      (∀ snapshot, call.answer = .ok snapshot → snapshot = call.after) ∧
      (confirmedRow expected call.answer = none →
        mappingRow call.after (ruleKey rule) = mappingRow s.table (ruleKey rule)) := hsettled
  rw [step_ensured_table]
  generalize ensurePlan s.table call.read rule s.bindings = plan at hplanned hsettled ⊢
  cases plan with
  | idle | blame => exact ⟨fun _ _ => rfl, rfl⟩
  | adopt row expected =>
    cases hplanned with
    | adopt _ _ hexpected hrow =>
      rw [toStr_ruleName hexpected hid] at hrow
      exact ⟨fun _ _ => rfl, hrow⟩
  | write write expected =>
    obtain ⟨hleaves, hanswer, hsame⟩ := hsettled write expected rfl
    rw [hkey] at hleaves hsame
    refine ⟨hleaves, ?_⟩
    have hexpected : expectedNativeMapping rule = .ok expected := by
      cases hplanned with
      | update _ _ hexpected | add _ hexpected => exact hexpected
    change mappingRow call.after id = (confirmedRow expected call.answer).or _
    cases hrow : confirmedRow expected call.answer with
    | none => exact hsame hrow
    | some row =>
      obtain ⟨snapshot, hsnapshot, hread⟩ := confirmedRow_eq_some hid hexpected hrow
      rw [← hanswer snapshot hsnapshot, hread]
      rfl

theorem kept_ensured (h : s.Kept) (hnamed : (MappingEvent.ensured rule call reporting).Named)
    (hsettled : s.Settled (.ensured rule call reporting)) :
    (s.step (.ensured rule call reporting)).Kept := by
  obtain ⟨id, hid, -⟩ := hnamed
  have hkey := ruleKey_of_get hid
  obtain ⟨hleaves, hrow⟩ := @table_ensured _ _ _ _ _ _ reporting hid hsettled
  have hown := step_ensured_own s rule call reporting
  have hforeign := step_ensured_foreign s rule call reporting
  rw [hkey] at hown hforeign
  rw [← step_ensured_table s rule call reporting] at hforeign
  generalize s.step (.ensured rule call reporting) = s' at hleaves hrow hown hforeign ⊢
  refine kept_of h id hleaves (fun other hne => ?_) ?_
  · rw [hown, hforeign]
    constructor
    · split
      · exact Function.update_of_ne hne _ _
      · rfl
    · split
      · exact Function.update_of_ne hne _ _
      · rfl
  · generalize (ensurePlan s.table call.read rule s.bindings).taken call.answer = taken
      at hown hforeign hrow
    intro mine row hmine hkept hrow'
    rw [hrow] at hrow'
    rw [hown] at hmine
    rw [hforeign, hrow] at hkept
    cases taken with
    | some confirmed =>
      rw [Option.isSome_some, if_pos rfl, Function.update_self] at hmine
      exact Option.some.inj (hrow'.symm.trans hmine)
    | none =>
      simp only [Option.isSome_none, Bool.false_eq_true, if_false, Bool.false_or, Option.none_or,
        bne_self_eq_false] at hmine hkept hrow'
      exact h id mine row hmine hkept hrow'

theorem kept_removed (h : s.Kept) (hsettled : s.Settled (.removed id call)) :
    (s.step (.removed id call)).Kept := by
  have hsettled : s.deletes id call = true → Leaves id s.table call.after ∧
      (mappingRow call.after id = none ∨ mappingRow call.after id = mappingRow s.table id) := hsettled
  have hleaves : Leaves id s.table (if s.deletes id call then call.after else s.table) := by
    split
    · exact (hsettled ‹_›).1
    · exact fun _ _ => rfl
  have hrow : mappingRow (if s.deletes id call then call.after else s.table) id = none ∨
      mappingRow (if s.deletes id call then call.after else s.table) id = mappingRow s.table id := by
    split
    · exact (hsettled ‹_›).2
    · exact .inr rfl
  unfold Mappings.step
  dsimp only
  generalize (if s.deletes id call then call.after else s.table) = after at hleaves hrow ⊢
  split
  · refine kept_of h id hleaves (fun other hne => ?_) fun mine row hmine _ _ => ?_
    · exact ⟨Function.update_of_ne hne _ _, Function.update_of_ne hne _ _⟩
    · dsimp only at hmine
      rw [Function.update_self] at hmine
      cases hmine
  · refine kept_of h id hleaves (fun other hne => ⟨rfl, ?_⟩) fun mine row hmine hforeign hrow' => ?_
    · dsimp only
      split
      · exact Function.update_of_ne hne _ _
      · rfl
    · rcases hrow with hnone | hsame
      · dsimp only at hrow'
        rw [hnone] at hrow'
        cases hrow'
      · dsimp only at hrow' hmine hforeign
        rw [hsame] at hrow' hforeign
        rw [bne_self_eq_false, if_neg Bool.false_ne_true] at hforeign
        exact h id mine row hmine hforeign hrow'

theorem kept_step {e : MappingEvent} (h : s.Kept) (hnamed : e.Named) (hsettled : s.Settled e) :
    (s.step e).Kept := by
  cases e with
  | changed table =>
    intro id mine row hmine hforeign hrow
    obtain ⟨hkept, hsame⟩ := Bool.or_eq_false_iff.mp hforeign
    have hsame : mappingRow s.table id = mappingRow table id := by simpa using hsame
    exact h id mine row hmine hkept (hsame.trans hrow)
  | ensured rule call reporting => exact kept_ensured h hnamed hsettled
  | removed id call => exact kept_removed h hsettled

omit [Digest] in
theorem kept_start (table : Entries) : ({ table } : Mappings).Kept :=
  fun _ _ _ h => (by cases h)

/-- The rows that are blamed on somebody else, and those that are written over
or deleted, along every run. Where every write ends as it is read back, only
what another party has changed differs from what was last confirmed. -/
theorem mappings_attributed (hdigest : ∀ v, Digest.sha256 v ≠ "") (table : Entries)
    {events : List MappingEvent} (hnamed : ∀ e ∈ events, e.Named) :
    Along Mappings.step Mappings.Accounted { table } events ∧
      (Along Mappings.step Mappings.Settled { table } events →
        ∀ id, (run Mappings.step { table } events).Differs id →
          (run Mappings.step { table } events).foreign id = true) := by
  constructor
  · exact (along_of_forall hnamed).mono (mappings_sound_start table) (fun _ _ hs hn => mappings_sound_step hs hn)
      fun _ _ hs hn => accounted hdigest hs hn
  · intro hsettled id ⟨mine, row, hmine, hrow, hdiffers⟩
    have hkept : (run Mappings.step { table } events).Kept :=
      (along_and.mpr ⟨along_of_forall hnamed, hsettled⟩).invariant (kept_start table)
        fun _ _ hk h => kept_step hk h.1 h.2
    by_contra hforeign
    have hsame : row = mine := hkept id mine row hmine (Bool.eq_false_of_not_eq_true hforeign) hrow
    exact hdiffers (congrArg ruleFingerprint hsame)

end

-- ---------------------------------------------------------------------------
-- One rule
-- ---------------------------------------------------------------------------

attribute [local instance] Unicode.ascii

local instance webDigest : Digest where
  sha256 row :=
    if get (asDict row) "destPort" = .str "443" then
      "7e941152c2029c9e5b1c78a1935850b7a6ead66442ea03fc742990a9bc8b76d0"
    else "62101484c74830ae2c6a430d1acbde5b6b1d96840d2e8ed3d76bc43e8560e4de"

def webRule : Rule where
  id := "stun-1"
  name := "web"
  enabled := true
  listenPort := 20000
  targetIpv4 := "192.168.1.2"
  targetPort := 443
  serviceType := "HTTPS"
  transportProtocol := "TCP"
  stunServer := defaultStunTcpServer
  maxConnections := 32
  idleTimeoutSec := 300
  createdAt := ""
  updatedAt := ""

def webRow (destPort : String) : Entries :=
  [("ruleName", .str "LabProbe STUN stun-1"), ("src", .str "wan"), ("srcIp", .str ""),
    ("srcPort", .str "20000"), ("destIp", .str "192.168.1.2"), ("destPort", .str destPort),
    ("proto", .str "tcp")]

def webTable (destPort : String) : Entries :=
  [("list", .list [.dict (webRow destPort)])]

/-- The mapping is added, and somebody sends it to another port. -/
def webEvents : List MappingEvent :=
  [.ensured webRule.toJson ⟨none, webTable "443", .ok (webTable "443")⟩ false,
    .changed (webTable "8443")]

theorem mappingRow_webTable (destPort id : String) :
    mappingRow (webTable destPort) id = if id = "stun-1" then some (webRow destPort) else none := by
  have hrows : nativeMappingRows (webTable destPort) = [webRow destPort] := rfl
  have hname : text (get (webRow destPort) "ruleName") = mappingName "stun-1" := by
    change text (.str "LabProbe STUN stun-1") = _
    decide +kernel
  unfold mappingRow findNativeMapping
  rw [hrows]
  by_cases hid : id = "stun-1"
  · subst hid
    rw [if_pos rfl]
    simp only [List.find?_cons, hname, beq_self_eq_true]
    rfl
  · have hne : (mappingName "stun-1" == mappingName id) = false :=
      beq_eq_false_iff_ne.mpr fun heq => hid (String.append_right_inj _ |>.mp heq).symm
    rw [if_neg hid]
    simp only [List.find?_cons, hname, hne]
    rfl

theorem mappings_attributed_web :
    (run Mappings.step { table := [] } webEvents).foreign "stun-1" = true := by
  have hdigest : ∀ v, Digest.sha256 v ≠ "" := fun v => by
    change ite _ _ _ ≠ ""
    split <;> decide
  have hname : Named "stun-1" := by
    unfold Named
    decide +kernel
  have hnamed : ∀ e ∈ webEvents, e.Named :=
    List.forall_mem_cons.mpr ⟨⟨"stun-1", rfl, hname⟩,
      List.forall_mem_cons.mpr ⟨trivial, List.forall_mem_nil _⟩⟩
  refine (mappings_attributed hdigest [] hnamed).2 ⟨?_, trivial, trivial⟩ "stun-1"
    ⟨webRow "443", webRow "8443", by decide +kernel, ?_, by decide +kernel⟩
  · intro write expected hplan
    have hkey : ruleKey webRule.toJson = "stun-1" := rfl
    refine ⟨fun other hne => ?_, ?_, ?_⟩
    · rw [hkey] at hne
      change mappingRow (webTable "443") other = none
      rw [mappingRow_webTable, if_neg hne]
    · intro snapshot hanswer
      exact (Except.ok.inj hanswer).symm
    · have hexpected : expectedNativeMapping webRule.toJson = .ok (webRow "443") := by
        decide +kernel
      have hplanned := planned_ensurePlan [] webRule.toJson [] none
      change ensurePlan [] none webRule.toJson [] = _ at hplan
      rw [hplan] at hplanned
      cases hplanned with
      | update _ _ h | add _ h =>
        cases hexpected.symm.trans h
        have hconfirmed : (confirmedRow (webRow "443") (.ok (webTable "443"))).isSome = true := by
          decide +kernel
        intro hnone
        change confirmedRow (webRow "443") (.ok (webTable "443")) = none at hnone
        rw [hnone] at hconfirmed
        cases hconfirmed
  · change mappingRow (webTable "8443") "stun-1" = _
    rw [mappingRow_webTable, if_pos rfl]

def movedRule : Entries := { webRule with targetPort := 8443 }.toJson

/-- The rule is sent to another port; the write takes effect and times out. -/
def timedOut : Mappings :=
  run Mappings.step { table := [] }
    [.ensured webRule.toJson ⟨none, webTable "443", .ok (webTable "443")⟩ false,
      .ensured movedRule ⟨none, webTable "8443", .error "timed out"⟩ true]

-- The write is blamed on somebody else, and the router has the row that is expected.
example : timedOut.foreign "stun-1" = false ∧
    expectedNativeMapping movedRule = .ok (webRow "8443") ∧
    (secureMapping { read := .ok timedOut.table, verified := fun _ => .ok timedOut.table } movedRule
      timedOut.bindings).map (fun e => (e.1, get e.2 "state")) =
        [("stun-1", .str "manual_change")] := by
  decide +kernel

end LabProbe.Stun
