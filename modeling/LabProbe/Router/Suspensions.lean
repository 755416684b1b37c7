import LabProbe.Hub.AddressText
import LabProbe.Router.Candidates

/-!
# Who changed the rule

The automation over a router that other parties change as well. A write of a cycle
may be rejected, take effect and fail its check, or take effect and end in an
exception; beside the document stands, for each rule, whether another party has
changed it since the automation last wrote or adopted it. The binding remembers
what it wrote only after the check, so a write that took effect without it is
blamed on somebody else.
-/

namespace LabProbe.Router

open Py Py.Json Hub Check Runs

-- ---------------------------------------------------------------------------
-- Addresses that are read back
-- ---------------------------------------------------------------------------

def Addressed (cs : List Char) : Prop := ∀ c ∈ cs, isSpace c = false ∧ c ≠ '/' ∧ c ≠ '%'

theorem addressed_ipv4Text (value : Nat) : Addressed (ipv4Text value) := by
  intro c hc
  rcases mem_ipv4Text hc with rfl | hdigit
  · decide
  · refine ⟨isSpace_of_isDigit hdigit, ?_, ?_⟩ <;> rintro rfl <;> simp at hdigit

theorem addressed_ipv6Text (value : Nat) : Addressed (ipv6Text value) := by
  intro c hc
  have hplain := Relay.isPlain_ipv6Text hc
  exact ⟨Relay.isSpace_of_isPlain hplain, Relay.ne_of_isPlain hplain (by decide),
    Relay.ne_of_isPlain hplain (by decide)⟩

theorem addressed_addressText (address : IpAddress) : Addressed (addressText address).toList := by
  cases address with
  | v4 value =>
    rw [addressText, String.toList_ofList]
    exact addressed_ipv4Text value
  | v6 value =>
    rw [addressText, String.toList_ofList]
    exact addressed_ipv6Text value

theorem ipAddress_addressText {s : String} {address : IpAddress} (h : ipAddress s = some address) :
    ipAddress (addressText address) = some address := by
  cases address with
  | v6 value => exact ipAddress_ipv6Text (ipAddress_v6_lt h)
  | v4 value =>
    have hparse : parseIpv4 s.toList = some value := by
      simp only [ipAddress] at h
      split at h
      · cases h
      · split at h
        · rename_i hread
          cases h
          exact hread
        · simp at h
    exact ipAddress_ipv4Text (parseIpv4_lt hparse)

section
variable [Unicode]

theorem text_addressed {s : String} (h : Addressed s.toList) : text (.str s) = s := by
  rw [text_str]
  exact strip_of_noSpace fun c hc => (h c hc).1

omit [Unicode] in
theorem takeWhile_addressed {cs : List Char} (h : Addressed cs) :
    (cs.takeWhile (· != '/')).takeWhile (· != '%') = cs := by
  have hslash : cs.takeWhile (· != '/') = cs :=
    List.takeWhile_eq_self_iff.mpr fun c hc => by simpa using (h c hc).2.1
  rw [hslash]
  exact List.takeWhile_eq_self_iff.mpr fun c hc => by simpa using (h c hc).2.2

theorem ip_cases (value : Json) (family : String) : ip value family = "" ∨
    ∃ s address, ipAddress s = some address ∧
      ¬(address.version ≠ (if family = "ipv4" then 4 else 6) || isReserved address) = true ∧
      ip value family = addressText address := by
  unfold ip
  dsimp only
  split
  · rename_i address hread
    by_cases hkept : (address.version ≠ (if family = "ipv4" then 4 else 6) ||
        isReserved address) = true
    · exact .inl (if_pos hkept)
    · exact .inr ⟨_, address, hread, hkept, if_neg hkept⟩
  · exact .inl rfl

theorem ip_ip (value : Json) (family : String) :
    ip (.str (ip value family)) family = ip value family := by
  rcases ip_cases value family with h | ⟨s, address, hread, hkept, h⟩
  · have htext : text (.str "") = "" := strip_empty
    have hnone : ipAddress "" = none := by decide
    rw [h]
    simp [ip, htext, hnone]
  · have haddressed := addressed_addressText address
    rw [h, ip, text_addressed haddressed, takeWhile_addressed haddressed, String.ofList_toList,
      ipAddress_addressText hread]
    exact if_neg hkept

omit [Unicode] in
theorem ipv6Address_ipv6Text {value : Nat} (h : value < 2 ^ 128) :
    ipv6Address (ipv6Text value) = some value := by
  have hread := ipAddress_ipv6Text h
  simp only [ipAddress, String.toList_ofList] at hread
  unfold ipv6Address
  split at hread
  · cases hread
  · rename_i hslash
    rw [if_neg hslash]
    split at hread
    · cases hread
    · obtain ⟨v, hv, heq⟩ := Option.map_eq_some_iff.mp hread
      cases heq
      exact hv

omit [Unicode] in
theorem colon_mem_ipv6Text {value : Nat} (h : value < 2 ^ 128) : ':' ∈ ipv6Text value :=
  (isAddressChar_of_parseIpv6Int (parseIpv6Int_ipv6Text h)).1

theorem suffix_cases (value : Json) : fieldValue "ipv6SuffixDest" value "ipv6" = "" ∨
    ∃ n, n ≠ 0 ∧ n < 2 ^ 64 ∧
      fieldValue "ipv6SuffixDest" value "ipv6" = String.ofList (ipv6Text n) := by
  have hhost : ∀ n : Nat, hostText n = "" ∨
      ∃ m, m ≠ 0 ∧ m < 2 ^ 64 ∧ hostText n = String.ofList (ipv6Text m) := by
    intro n
    unfold hostText
    split
    · exact .inl rfl
    · rename_i hne
      exact .inr ⟨n % 2 ^ 64, hne, Nat.mod_lt _ (by decide), rfl⟩
  simp only [fieldValue]
  rw [if_neg (by decide), if_neg (by decide)]
  split
  · exact .inl rfl
  · cases hread : ipv6Address _ with
    | none => exact .inl rfl
    | some n => exact hhost n

theorem fieldValue_fieldValue (field family : String) (value : Json) :
    fieldValue field (.str (fieldValue field value family)) family =
      fieldValue field value family := by
  by_cases hdest : field = "destIP"
  · simp only [fieldValue, hdest, if_true]
    exact ip_ip value family
  · by_cases hsuffix : field = "ipv6SuffixDest" ∧ family = "ipv6"
    · obtain ⟨rfl, rfl⟩ := hsuffix
      rcases suffix_cases value with h | ⟨n, hn, hlt, h⟩
      · have htext : text (.str "") = "" := strip_empty
        rw [h]
        simp [fieldValue, htext]
      · have hbig : n < 2 ^ 128 := by omega
        have hcolon := colon_mem_ipv6Text hbig
        have htext : text (.str (String.ofList (ipv6Text n))) = String.ofList (ipv6Text n) :=
          text_addressed (by simpa using addressed_ipv6Text n)
        have hne : (ipv6Text n).isEmpty = false := by
          cases hchars : ipv6Text n with
          | nil => simp [hchars] at hcolon
          | cons c cs => rfl
        have hhost : hostText n = String.ofList (ipv6Text n) := by
          rw [hostText, Nat.mod_eq_of_lt hlt, if_neg hn]
        rw [h]
        simp [fieldValue, htext, hne, hcolon, ipv6Address_ipv6Text hbig, hhost]
    · have hnone : ∀ v, fieldValue field v family = "" := by
        intro v
        unfold fieldValue
        rw [if_neg hdest, if_pos]
        rw [Bool.or_eq_true, decide_eq_true_eq, decide_eq_true_eq]
        exact not_and_or.mp hsuffix
      rw [hnone, hnone]

-- ---------------------------------------------------------------------------
-- Bindings that remember their rule
-- ---------------------------------------------------------------------------

variable [Sha256]

/-- A binding that takes the rule for its own: with nothing to compare it only asks
for a confirmation. -/
def Remembers (binding rule : Entries) : Prop :=
  lastApplied binding = "" ∨ drifted binding rule = false

omit [Unicode] [Sha256] in
theorem isSpace_of_hexDigit {c : Char} (h : (hexDigit? c).isSome = true) : isSpace c = false := by
  have hrange : 48 ≤ c.toNat ∧ c.toNat ≤ 57 ∨ 97 ≤ c.toNat ∧ c.toNat ≤ 102 ∨
      65 ≤ c.toNat ∧ c.toNat ≤ 70 := by
    unfold hexDigit? at h
    split at h
    · rename_i hdigit
      exact .inl (Char.isDigit_iff_toNat.mp hdigit)
    · split at h
      · rename_i hlower
        exact .inr (.inl (by simpa using hlower))
      · split at h
        · rename_i hupper
          exact .inr (.inr (by simpa using hupper))
        · cases h
  simp only [isSpace, Bool.and_eq_false_iff, Bool.or_eq_false_iff, decide_eq_false_iff_not,
    beq_eq_false_iff_ne]
  omega

theorem text_ruleFingerprint (rule : Entries) (field : String) :
    text (.str (ruleFingerprint rule field)) = ruleFingerprint rule field ∧
      ruleFingerprint rule field ≠ "" := by
  obtain ⟨hlength, hhex⟩ := Sha256.hexdigest_hex
    (Json.dict (rule.filter fun e => !(["stats", field].contains e.1))).sort
  constructor
  · rw [text_str]
    exact strip_of_noSpace fun c hc => isSpace_of_hexDigit (hhex c hc)
  · intro hempty
    have hzero : (ruleFingerprint rule field).length = 0 := by rw [hempty]; rfl
    unfold ruleFingerprint at hzero
    omega

structure Holds (binding : Entries) (uuid field family value fingerprint : String) : Prop where
  uuid : uuidOf binding = uuid
  field : fieldOf binding = field
  family : familyOf binding = family
  value : get binding "lastAppliedValue" = .str value
  fingerprint : get binding "ruleFingerprint" = .str fingerprint

theorem Holds.remembers {binding rule : Entries} {uuid field family : String}
    (h : Holds binding uuid field family (fieldValue field (get rule field) family)
      (ruleFingerprint rule field)) : Remembers binding rule := by
  obtain ⟨htext, hne⟩ := text_ruleFingerprint rule field
  have hlast : lastApplied binding = fieldValue field (get rule field) family := by
    rw [lastApplied, h.field, h.family, h.value, fieldValue_fieldValue]
  have hcurrent : currentValue binding rule = fieldValue field (get rule field) family := by
    rw [currentValue, h.field, h.family]
  by_cases hempty : lastApplied binding = ""
  · exact .inl hempty
  · refine .inr (drifted_eq_false.mpr ⟨hempty, ?_, ?_, ?_⟩)
    · rw [h.fingerprint, htext]
      exact hne
    · rw [hcurrent, hlast]
    · rw [h.field, h.fingerprint, htext]

theorem remembers_adopted {mappings : Mappings} {uuid : String} {body rule binding : Entries}
    {now : Int} (h : normalizeBinding mappings uuid body rule now = .ok binding)
    (huuid : strip uuid = uuid) : uuidOf binding = uuid ∧ Remembers binding rule := by
  simp only [normalizeBinding, Check.bind_eq_ok, Check.require_eq_ok] at h
  obtain ⟨_, -, _, -, _, -, _, hfamily, _, hfield, _, -, _, -, _, -, _, -, _, -, h⟩ := h
  generalize Unicode.lower (text ((get body "addressFamily").or (get rule "ipVersion"))) = family
    at hfamily hfield h
  generalize (if text (get body "matchField") ≠ "" then text (get body "matchField")
    else if text (get rule "ipv6SuffixDest") ≠ "" then "ipv6SuffixDest" else "destIP") = field
    at hfield h
  have hfamilyText : strip family = family := by
    rcases (by simpa using hfamily : family = "ipv4" ∨ family = "ipv6") with rfl | rfl <;> decide
  have hfieldText : strip field = field := by
    have hnamed := ((Bool.and_eq_true _ _).mp hfield).1
    rcases (by simpa using hnamed : field = "destIP" ∨ field = "ipv6SuffixDest") with rfl | rfl <;>
      decide
  split at h
  · cases h
  · simp only [Check.bind_eq_ok, Check.require_eq_ok, Except.ok.injEq] at h
    obtain ⟨_, -, _, -, _, -, hbinding⟩ := h
    have hholds : Holds binding uuid field family (fieldValue field (get rule field) family)
        (ruleFingerprint rule field) := by
      subst hbinding
      constructor
      · exact (text_str uuid).trans huuid
      · exact (text_str field).trans hfieldText
      · exact (text_str family).trans hfamilyText
      · rfl
      · rfl
    exact ⟨hholds.uuid, hholds.remembers⟩

omit [Sha256] in
theorem uuidOf_suspendedBinding (binding : Entries) (reason : String) (now : Int) :
    uuidOf (suspendedBinding binding reason now) = uuidOf binding :=
  congrArg text (get_update_of_notMem binding (by simp [Dict.keys]))

theorem remembers_suspendedBinding {binding rule : Entries} (reason : String) (now : Int)
    (h : Remembers binding rule) : Remembers (suspendedBinding binding reason now) rule := by
  have hget : ∀ key ∉ ["suspended", "suspendedReason", "suspendedAt"],
      get (suspendedBinding binding reason now) key = get binding key := fun key hkey =>
    get_update_of_notMem binding hkey
  have hfield := hget "matchField" (by simp)
  have hfamily := hget "addressFamily" (by simp)
  have hvalue := hget "lastAppliedValue" (by simp)
  have hfingerprint := hget "ruleFingerprint" (by simp)
  simpa only [Remembers, drifted, lastApplied, currentValue, fieldOf, familyOf, hfield, hfamily,
    hvalue, hfingerprint] using h

omit [Sha256] in
theorem findRule_ne_nil {data : Json} {uuid : String} {rule : Entries}
    (h : findRule data uuid = some rule) (hbound : uuid ≠ "") : rule ≠ [] := by
  rintro rfl
  have huuid : text (get [] "uuid") = uuid := by simpa using List.find?_some h
  have hempty : text (get [] "uuid") = "" := strip_empty
  exact hbound (huuid.symm.trans hempty)

/-- A checked write leaves a binding that remembers the rule it was read back as. -/
theorem remembers_applied {binding rule replacement : Entries} {desired : String}
    {verified : Json} {now : Int}
    (h : appliedBinding binding rule desired verified now = .ok replacement) :
    currentValue binding ((findRule verified (uuidOf binding)).getD []) = desired ∧
      uuidOf replacement = uuidOf binding ∧
      ∀ updated, uuidOf binding ≠ "" → findRule verified (uuidOf binding) = some updated →
        Remembers replacement updated := by
  simp only [appliedBinding, Check.bind_eq_ok, Check.require_eq_ok, Except.ok.injEq] at h
  obtain ⟨_, hchecked, hreplacement⟩ := h
  have hdesired := beq_iff_eq.mp hchecked
  have hget : ∀ key ∉ ["lastAppliedValue", "ruleFingerprint", "lastAppliedAt", "suspended",
      "suspendedReason"], get replacement key = get binding key := by
    intro key hkey
    rw [← hreplacement]
    exact get_update_of_notMem binding hkey
  have huuid : uuidOf replacement = uuidOf binding := congrArg text (hget "firewallUuid" (by simp))
  refine ⟨hdesired, huuid, ?_⟩
  intro updated hbound hupdated
  have hne := findRule_ne_nil hupdated hbound
  rw [hupdated, Option.getD_some] at hdesired hreplacement
  rw [if_neg (by simpa using hne), ← hdesired] at hreplacement
  have hholds : Holds replacement (uuidOf binding) (fieldOf binding) (familyOf binding)
      (currentValue binding updated) (ruleFingerprint updated (fieldOf binding)) := by
    constructor
    · exact huuid
    · exact congrArg text (hget "matchField" (by simp))
    · exact congrArg text (hget "addressFamily" (by simp))
    · rw [← hreplacement]
      exact get_update_of_mem binding (by simp [Dict.keys]) (by simp)
    · rw [← hreplacement]
      exact get_update_of_mem binding (by simp [Dict.keys]) (by simp)
  exact hholds.remembers

-- ---------------------------------------------------------------------------
-- The document
-- ---------------------------------------------------------------------------

omit [Sha256] in
theorem mem_bindings {document : List Entries} {binding : Entries} :
    binding ∈ bindings document ↔ binding ∈ document ∧ uuidOf binding ≠ "" := by
  simp [bindings]

omit [Sha256] in
theorem mem_others {document : List Entries} {uuid : String} {binding : Entries} :
    binding ∈ others document uuid ↔ binding ∈ bindings document ∧ uuidOf binding ≠ uuid := by
  simp [others]

omit [Sha256] in
theorem mem_save {rows : List Entries} {binding : Entries} (h : binding ∈ save rows) :
    binding ∈ rows :=
  (List.mem_insertionSort _).mp (List.mem_of_mem_take h)

omit [Sha256] in
theorem mem_saved {document : List Entries} {uuid : String} {replacement binding : Entries}
    (h : binding ∈ bindings (save (others document uuid ++ [replacement]))) :
    binding = replacement ∨ binding ∈ bindings document ∧ uuidOf binding ≠ uuid := by
  rcases List.mem_append.mp (mem_save (mem_bindings.mp h).1) with hold | hnew
  · exact .inr (mem_others.mp hold)
  · exact .inl (List.mem_singleton.mp hnew)

-- ---------------------------------------------------------------------------
-- The automation and the other parties
-- ---------------------------------------------------------------------------

/-- The automation, what the router holds, and the rules that another party has
changed since the last attempt to write them. -/
structure SharedSystem where
  automation : AutomationSystem
  router : Json
  changed : String → Bool

inductive SharedEvent where
  /-- Another party leaves the router so. -/
  | change (router : Json)
  /-- The automation acts; a write of it leaves the router so. -/
  | automate (event : AutomationEvent) (router : Json)

/-- Nothing is bound yet. -/
def SharedSystem.start (router : Json) : SharedSystem where
  automation := { document := [], watch := { candidates := [], seen := [] } }
  router := router
  changed _ := false

/-- What an event comes to do with a rule. -/
def planOf (s : AutomationSystem) : AutomationEvent → Plan
  | .reconcile mappings firewall firewallUuid _ _ =>
    (s.watch.scan mappings firewall (cycleBindings s.document firewallUuid)).2
  | _ => .idle

def SharedSystem.step (s : SharedSystem) : SharedEvent → SharedSystem
  | .change router =>
    { s with
      router
      changed := fun uuid => s.changed uuid || findRule s.router uuid != findRule router uuid }
  | .automate event router =>
    match planOf s.automation event with
    | .write binding _ _ =>
      { automation := s.automation.step event
        router
        changed := fun uuid => uuid != uuidOf binding && s.changed uuid }
    | _ => { s with automation := s.automation.step event }

/-- A binding is suspended as changed by hand only when another party has
changed its rule. -/
def SharedSystem.Excused (s : SharedSystem) : Plan → Prop
  | .suspend binding reason => reason = "manual_change" → s.changed (uuidOf binding) = true
  | _ => True

def SharedSystem.Blameless (s : SharedSystem) : SharedEvent → Prop
  | .change _ => True
  | .automate event _ => s.Excused (planOf s.automation event)

/-- A rule is read as the router has it, but for what another party has changed. -/
def SharedSystem.Current (s : SharedSystem) : AutomationEvent → Prop
  | .reconcile _ firewall firewallUuid _ _ =>
    ∀ binding ∈ cycleBindings s.automation.document firewallUuid,
      s.changed (uuidOf binding) = false →
      findRule firewall (uuidOf binding) = findRule s.router (uuidOf binding)
  | .upsert _ firewall firewallUuid _ _ => s.changed (text firewallUuid) = false →
    findRule firewall (text firewallUuid) = findRule s.router (text firewallUuid)
  | _ => True

/-- The rule that a write is believed to leave: the one it is read back as, if
that has the address, and otherwise the one the cycle had read. -/
def believed (binding rule : Entries) (desired : String) :
    Except AutomationError Json → Option Entries
  | .ok verified =>
    if currentValue binding ((findRule verified (uuidOf binding)).getD []) = desired then
      findRule verified (uuidOf binding)
    else some rule
  | .error _ => some rule

/-- A write leaves the rule as it is believed to, and the other rules alone. -/
def SharedSystem.Left (s : SharedSystem) (answer : Except AutomationError Json) (router : Json) :
    Plan → Prop
  | .write binding rule desired =>
    findRule router (uuidOf binding) = believed binding rule desired answer ∧
      ∀ other ∈ bindings s.automation.document, uuidOf other ≠ uuidOf binding →
        findRule router (uuidOf other) = findRule s.router (uuidOf other)
  | _ => True

def SharedSystem.Answered (s : SharedSystem) (router : Json) : AutomationEvent → Prop
  | .reconcile mappings firewall firewallUuid answer now =>
    s.Left answer router (planOf s.automation (.reconcile mappings firewall firewallUuid answer now))
  | _ => True

def SharedSystem.Settled (s : SharedSystem) : SharedEvent → Prop
  | .change _ => True
  | .automate event router => s.Current event ∧ s.Answered router event

instance (s : SharedSystem) : DecidablePred s.Excused
  | .suspend binding reason =>
    inferInstanceAs (Decidable (reason = "manual_change" → s.changed (uuidOf binding) = true))
  | .idle | .write .. => .isTrue trivial

instance (s : SharedSystem) : DecidablePred s.Blameless
  | .change _ => .isTrue trivial
  | .automate event _ => inferInstanceAs (Decidable (s.Excused (planOf s.automation event)))

instance (s : SharedSystem) : DecidablePred s.Current
  | .reconcile _ firewall firewallUuid _ _ =>
    inferInstanceAs (Decidable (∀ binding ∈ cycleBindings s.automation.document firewallUuid,
      s.changed (uuidOf binding) = false →
      findRule firewall (uuidOf binding) = findRule s.router (uuidOf binding)))
  | .upsert _ firewall firewallUuid _ _ =>
    inferInstanceAs (Decidable (s.changed (text firewallUuid) = false →
      findRule firewall (text firewallUuid) = findRule s.router (text firewallUuid)))
  | .delete _ | .restart => .isTrue trivial

instance (s : SharedSystem) (answer : Except AutomationError Json) (router : Json) :
    DecidablePred (s.Left answer router)
  | .write binding rule desired =>
    inferInstanceAs (Decidable (findRule router (uuidOf binding) =
        believed binding rule desired answer ∧
      ∀ other ∈ bindings s.automation.document, uuidOf other ≠ uuidOf binding →
        findRule router (uuidOf other) = findRule s.router (uuidOf other)))
  | .idle | .suspend .. => .isTrue trivial

instance (s : SharedSystem) (router : Json) : DecidablePred (s.Answered router)
  | .reconcile mappings firewall firewallUuid answer now =>
    inferInstanceAs (Decidable (s.Left answer router
      (planOf s.automation (.reconcile mappings firewall firewallUuid answer now))))
  | .upsert .. | .delete _ | .restart => .isTrue trivial

instance (s : SharedSystem) : DecidablePred s.Settled
  | .change _ => .isTrue trivial
  | .automate event router =>
    inferInstanceAs (Decidable (s.Current event ∧ s.Answered router event))

-- ---------------------------------------------------------------------------
-- What every event keeps
-- ---------------------------------------------------------------------------

/-- The binding remembers its rule, as far as nobody else has changed it. -/
def SharedSystem.Kept (s : SharedSystem) (binding : Entries) : Prop :=
  s.changed (uuidOf binding) = false →
    ∀ rule, findRule s.router (uuidOf binding) = some rule → Remembers binding rule

/-- Every rule has one binding, which remembers it. -/
structure SharedSystem.Sound (s : SharedSystem) : Prop where
  distinct : ∀ a ∈ bindings s.automation.document, ∀ b ∈ bindings s.automation.document,
    uuidOf a = uuidOf b → a = b
  kept : ∀ binding ∈ bindings s.automation.document, s.Kept binding

variable {s s' : SharedSystem}

/-- The rule of a binding is as it was, if nobody else has changed it. -/
def SharedSystem.Same (s s' : SharedSystem) (uuid : String) : Prop :=
  s'.changed uuid = false →
    s.changed uuid = false ∧ findRule s'.router uuid = findRule s.router uuid

theorem SharedSystem.Kept.same {binding : Entries} (h : s.Kept binding)
    (hsame : s.Same s' (uuidOf binding)) : s'.Kept binding := by
  intro hunchanged rule hrule
  obtain ⟨hbefore, hrules⟩ := hsame hunchanged
  exact h hbefore rule (hrules ▸ hrule)

theorem SharedSystem.Sound.replaced (replacement : Entries) (hs : s.Sound)
    (hmem : ∀ binding ∈ bindings s'.automation.document, binding = replacement ∨
      binding ∈ bindings s.automation.document ∧ uuidOf binding ≠ uuidOf replacement)
    (hkept : s'.Kept replacement)
    (hsame : ∀ binding ∈ bindings s.automation.document, uuidOf binding ≠ uuidOf replacement →
      s.Same s' (uuidOf binding)) : s'.Sound := by
  constructor
  · intro a ha b hb huuid
    rcases hmem a ha with rfl | ⟨ha, hne⟩
    · rcases hmem b hb with rfl | ⟨-, hne⟩
      · rfl
      · exact absurd huuid.symm hne
    · rcases hmem b hb with rfl | ⟨hb, -⟩
      · exact absurd huuid hne
      · exact hs.distinct a ha b hb huuid
  · intro binding hbinding
    rcases hmem binding hbinding with rfl | ⟨hold, hne⟩
    · exact hkept
    · exact (hs.kept binding hold).same (hsame binding hold hne)

theorem SharedSystem.Sound.restrict (hs : s.Sound)
    (hmem : bindings s'.automation.document ⊆ bindings s.automation.document)
    (hsame : ∀ uuid, s.Same s' uuid) : s'.Sound := by
  constructor
  · intro a ha b hb huuid
    exact hs.distinct a (hmem ha) b (hmem hb) huuid
  · intro binding hbinding
    exact (hs.kept binding (hmem hbinding)).same (hsame _)

theorem sound_start (router : Json) : (SharedSystem.start router).Sound := by
  constructor
  · intro a ha
    cases ha
  · intro binding hbinding
    cases hbinding

theorem sound_change (router : Json) (hs : s.Sound) : (s.step (.change router)).Sound := by
  refine hs.restrict (List.Subset.refl _) ?_
  intro uuid hunchanged
  obtain ⟨hbefore, hrules⟩ := (Bool.or_eq_false_iff).mp hunchanged
  have hrules : findRule s.router uuid = findRule router uuid := by simpa using hrules
  exact ⟨hbefore, hrules.symm⟩

-- ---------------------------------------------------------------------------
-- A cycle
-- ---------------------------------------------------------------------------

/-- A write that is checked is remembered as it was read back; any other leaves
the document. -/
theorem written_cases (binding rule : Entries) (desired : String)
    (answer : Except AutomationError Json) (now : Int) :
    saved now answer (.write binding rule desired) = none ∧
        believed binding rule desired answer = some rule ∨
      ∃ verified replacement,
        appliedBinding binding rule desired verified now = .ok replacement ∧
        saved now answer (.write binding rule desired) = some replacement ∧
        believed binding rule desired answer = findRule verified (uuidOf binding) := by
  cases answer with
  | error e => exact .inl ⟨rfl, rfl⟩
  | ok verified =>
    have hsaved : saved now (.ok verified) (.write binding rule desired) =
        (appliedBinding binding rule desired verified now).toOption := by
      simp only [saved, Except.bind]
    rw [hsaved]
    cases happlied : appliedBinding binding rule desired verified now with
    | ok replacement =>
      have hdesired := (remembers_applied happlied).1
      have hbelieved : believed binding rule desired (.ok verified) =
          findRule verified (uuidOf binding) := by
        rw [believed, if_pos hdesired]
      exact .inr ⟨verified, replacement, happlied, rfl, hbelieved⟩
    | error e =>
      rw [appliedBinding, bind_eq_error] at happlied
      rcases happlied with hchecked | ⟨_, -, hok⟩
      · have hother := (require_eq_error.mp hchecked).1
        have hbelieved : believed binding rule desired (.ok verified) = some rule := by
          rw [believed, if_neg (by simpa using hother)]
        exact .inl ⟨rfl, hbelieved⟩
      · cases hok

theorem found_planOf (s : AutomationSystem) (mappings : Mappings) (firewall : Json)
    (firewallUuid : String) (answer : Except AutomationError Json) (now : Int) :
    Found mappings firewall (cycleBindings s.document firewallUuid)
      (planOf s (.reconcile mappings firewall firewallUuid answer now)) := by
  have hscan := congrArg Prod.snd
    (scan_eq mappings firewall s.watch (cycleBindings s.document firewallUuid))
  rw [planOf, hscan]
  exact found_scan mappings firewall s.watch.candidates _

theorem document_reconcile (s : AutomationSystem) (mappings : Mappings) (firewall : Json)
    (firewallUuid : String) (answer : Except AutomationError Json) (now : Int) :
    (s.step (.reconcile mappings firewall firewallUuid answer now)).document =
      match saved now answer (planOf s (.reconcile mappings firewall firewallUuid answer now)) with
      | some replacement => replaceBinding s.document replacement
      | none => s.document := by
  unfold AutomationSystem.step planOf settle
  dsimp only
  cases saved now answer
    (s.watch.scan mappings firewall (cycleBindings s.document firewallUuid)).2 <;> rfl

theorem step_of_write {event : AutomationEvent} {router : Json} {binding rule : Entries}
    {desired : String} (h : planOf s.automation event = .write binding rule desired) :
    s.step (.automate event router) =
      { automation := s.automation.step event
        router
        changed := fun uuid => uuid != uuidOf binding && s.changed uuid } := by
  rw [SharedSystem.step, h]

theorem step_of_not_write {event : AutomationEvent} {router : Json}
    (h : ∀ binding rule desired, planOf s.automation event ≠ .write binding rule desired) :
    s.step (.automate event router) = { s with automation := s.automation.step event } := by
  rw [SharedSystem.step]
  split
  · rename_i hwrite
    exact absurd hwrite (h _ _ _)
  · rfl

theorem sound_reconcile {mappings : Mappings} {firewall router : Json} {firewallUuid : String}
    {answer : Except AutomationError Json} {now : Int} (hs : s.Sound)
    (hanswered : s.Answered router (.reconcile mappings firewall firewallUuid answer now)) :
    (s.step (.automate (.reconcile mappings firewall firewallUuid answer now) router)).Sound := by
  have hfound := found_planOf s.automation mappings firewall firewallUuid answer now
  have hdocument := document_reconcile s.automation mappings firewall firewallUuid answer now
  have hcycle : ∀ binding ∈ cycleBindings s.automation.document firewallUuid,
      binding ∈ bindings s.automation.document := fun binding h => List.mem_of_mem_filter h
  cases hplan : planOf s.automation (.reconcile mappings firewall firewallUuid answer now) with
  | idle =>
    rw [step_of_not_write (by simp [hplan])]
    rw [hplan] at hdocument
    refine hs.restrict ?_ fun uuid hunchanged => ⟨hunchanged, rfl⟩
    dsimp only
    rw [hdocument]
    exact List.Subset.refl _
  | suspend binding reason =>
    rw [step_of_not_write (by simp [hplan])]
    rw [hplan] at hdocument hfound
    have huuid := uuidOf_suspendedBinding binding reason now
    have hbound : binding ∈ bindings s.automation.document := by
      cases hfound with
      | suspend hmem => exact hcycle _ hmem
    refine hs.replaced (suspendedBinding binding reason now) ?_ ?_ fun other _ _ hunchanged =>
      ⟨hunchanged, rfl⟩
    · intro other hother
      dsimp only at hother
      rw [hdocument] at hother
      exact mem_saved hother
    · intro hunchanged rule hrule
      rw [huuid] at hunchanged hrule
      exact remembers_suspendedBinding reason now (hs.kept binding hbound hunchanged rule hrule)
  | write binding rule desired =>
    rw [step_of_write hplan]
    rw [SharedSystem.Answered, hplan] at hanswered
    rw [hplan] at hdocument hfound
    obtain ⟨hrule, hothers⟩ := hanswered
    have hbound : binding ∈ bindings s.automation.document ∧ drifted binding rule = false := by
      cases hfound with
      | write hmem _ _ hdrifted => exact ⟨hcycle _ hmem, hdrifted⟩
    have hsame : ∀ other ∈ bindings s.automation.document, uuidOf other ≠ uuidOf binding →
        s.Same { automation := s.automation.step
                   (.reconcile mappings firewall firewallUuid answer now)
                 router
                 changed := fun uuid => uuid != uuidOf binding && s.changed uuid }
          (uuidOf other) := by
      intro other hother hne hunchanged
      refine ⟨?_, hothers other hother hne⟩
      simpa [hne] using hunchanged
    rcases written_cases binding rule desired answer now with
      ⟨hsaved, hbelieved⟩ | ⟨verified, replacement, happlied, hsaved, hbelieved⟩
    · rw [hsaved] at hdocument
      rw [hbelieved] at hrule
      refine hs.replaced binding ?_ ?_ hsame
      · intro other hother
        dsimp only at hother
        rw [hdocument] at hother
        by_cases huuid : uuidOf other = uuidOf binding
        · exact .inl (hs.distinct other hother binding hbound.1 huuid)
        · exact .inr ⟨hother, huuid⟩
      · intro _ left hleft
        have hsame := hrule.symm.trans hleft
        cases hsame
        exact .inr hbound.2
    · obtain ⟨-, huuid, hremembers⟩ := remembers_applied happlied
      rw [hsaved] at hdocument
      rw [hbelieved] at hrule
      refine hs.replaced replacement ?_ ?_ ?_
      · intro other hother
        dsimp only at hother
        rw [hdocument] at hother
        exact mem_saved hother
      · intro _ left hleft
        rw [huuid] at hleft
        exact hremembers left (mem_bindings.mp hbound.1).2 (hrule.symm.trans hleft)
      · rw [huuid]
        exact hsame

-- ---------------------------------------------------------------------------
-- Edits
-- ---------------------------------------------------------------------------

theorem upsert_ok {mappings : Mappings} {firewall firewallUuid : Json} {body : Entries} {now : Int}
    {document document' : List Entries}
    (h : upsert mappings firewall firewallUuid body now document = .ok document') :
    ∃ rule binding, findRule firewall (text firewallUuid) = some rule ∧
      normalizeBinding mappings (text firewallUuid) body rule now = .ok binding ∧
      document' = save (others document (text firewallUuid) ++ [binding]) := by
  simp only [upsert, Check.bind_eq_ok] at h
  obtain ⟨_, -, h⟩ := h
  split at h
  · cases h
  · rename_i rule hrule
    obtain ⟨binding, hbinding, hdocument⟩ := Check.bind_eq_ok.mp h
    exact ⟨rule, binding, hrule, hbinding, (Except.ok.inj hdocument).symm⟩

theorem sound_upsert {mappings : Mappings} {firewall firewallUuid router : Json} {body : Entries}
    {now : Int} (hs : s.Sound)
    (hcurrent : s.Current (.upsert mappings firewall firewallUuid body now)) :
    (s.step (.automate (.upsert mappings firewall firewallUuid body now) router)).Sound := by
  rw [step_of_not_write fun _ _ _ => by simp [planOf]]
  unfold AutomationSystem.step
  dsimp only
  split
  · rename_i document hdocument
    obtain ⟨rule, binding, hrule, hbinding, rfl⟩ := upsert_ok hdocument
    obtain ⟨huuid, hremembers⟩ := remembers_adopted hbinding (strip_text firewallUuid)
    refine hs.replaced binding ?_ ?_ fun other _ _ hunchanged => ⟨hunchanged, rfl⟩
    · rw [huuid]
      exact fun other hother => mem_saved hother
    · intro hunchanged held hheld
      rw [huuid] at hunchanged hheld
      have hread := hcurrent hunchanged
      have hsame : some rule = some held := hrule.symm.trans (hread.trans hheld)
      cases hsame
      exact hremembers
  · exact hs

omit [Sha256] in
theorem bindings_delete_subset (firewallUuid : String) (document : List Entries)
    (candidates : Candidates) :
    bindings (delete firewallUuid document candidates).1 ⊆ bindings document := by
  unfold delete
  split
  · intro binding hbinding
    exact (mem_others.mp (mem_save (mem_bindings.mp hbinding).1)).1
  · exact List.Subset.refl _

theorem sound_step {e : SharedEvent} (hs : s.Sound) (h : s.Settled e) : (s.step e).Sound := by
  cases e with
  | change router => exact sound_change router hs
  | automate event router =>
    obtain ⟨hcurrent, hanswered⟩ := h
    cases event with
    | reconcile mappings firewall firewallUuid answer now => exact sound_reconcile hs hanswered
    | upsert mappings firewall firewallUuid body now => exact sound_upsert hs hcurrent
    | delete firewallUuid =>
      rw [step_of_not_write fun _ _ _ => by simp [planOf]]
      exact hs.restrict (bindings_delete_subset _ _ _) fun uuid hunchanged => ⟨hunchanged, rfl⟩
    | restart =>
      rw [step_of_not_write fun _ _ _ => by simp [planOf]]
      exact hs.restrict (List.Subset.refl _) fun uuid hunchanged => ⟨hunchanged, rfl⟩

-- ---------------------------------------------------------------------------
-- Runs
-- ---------------------------------------------------------------------------

theorem excused_reconcile {mappings : Mappings} {firewall : Json} {firewallUuid : String}
    {answer : Except AutomationError Json} {now : Int} (hs : s.Sound)
    (hcurrent : s.Current (.reconcile mappings firewall firewallUuid answer now)) :
    s.Excused (planOf s.automation (.reconcile mappings firewall firewallUuid answer now)) := by
  have hfound := found_planOf s.automation mappings firewall firewallUuid answer now
  generalize planOf s.automation (.reconcile mappings firewall firewallUuid answer now) = plan
    at hfound
  cases hfound with
  | idle | write => exact trivial
  | suspend hmem hactive hrule hdrifted =>
    rename_i binding rule
    intro hreason
    by_contra hchanged
    have hunchanged : s.changed (uuidOf binding) = false := Bool.not_eq_true _ ▸ hchanged
    have hread := hcurrent binding hmem hunchanged
    -- what the router has is remembered, so that only an adoption can be asked for
    rcases hs.kept binding (List.mem_of_mem_filter hmem) hunchanged rule
      (hread.symm.trans hrule) with hempty | hsame
    · rw [if_pos hempty] at hreason
      exact absurd hreason (by decide)
    · rw [hsame] at hdrifted
      cases hdrifted

theorem blameless_step {e : SharedEvent} (hs : s.Sound) (h : s.Settled e) : s.Blameless e := by
  cases e with
  | change router => exact trivial
  | automate event router =>
    cases event with
    | reconcile mappings firewall firewallUuid answer now => exact excused_reconcile hs h.1
    | upsert | delete | restart => exact trivial

/-- As long as the automation reads the rules as they are, and a write either
leaves its rule or is read back as it took effect, no binding is suspended as
changed by hand unless another party has changed its rule. -/
theorem blameless_of_settled (router : Json) (events : List SharedEvent)
    (h : Along SharedSystem.step SharedSystem.Settled (.start router) events) :
    Along SharedSystem.step SharedSystem.Blameless (.start router) events :=
  h.mono (sound_start router) (fun _ _ hs he => sound_step hs he)
    fun _ _ hs he => blameless_step hs he

end

-- ---------------------------------------------------------------------------
-- A write that is not remembered
-- ---------------------------------------------------------------------------

attribute [local instance] Unicode.ascii nasSha256

/-- The rules of the router while the one rule has that address. -/
def nasAt (destIp : String) : Json :=
  .dict [("list", .list [.dict (Dict.set (nasRule "NAS") "destIP" (.str destIp))])]

def nasAdopted : SharedEvent :=
  .automate
    (.upsert nasMappings (nasAt "192.168.5.10") (.str "uuid-1")
      [("targetType", .str "mapping"), ("mappingKind", .str "native"), ("mappingId", .str "NAS")] 0)
    .null

/-- A cycle that reads that address, with what its write is answered and leaves. -/
def nasFollowed (destIp : String) (answer : Except AutomationError Json) (router : Json) :
    SharedEvent :=
  .automate (.reconcile nasMappings (nasAt destIp) "" answer 0) router

theorem blameless_of_settled_nas :
    Along SharedSystem.step SharedSystem.Blameless (.start (nasAt "192.168.5.10"))
      [nasAdopted, nasFollowed "192.168.5.10" (.ok .null) .null,
        nasFollowed "192.168.5.10" (.ok (nasAt "192.168.5.46")) (nasAt "192.168.5.46"),
        .change (nasAt "192.168.5.99"), nasFollowed "192.168.5.99" (.ok .null) .null] :=
  blameless_of_settled (nasAt "192.168.5.10") _ (by decide +kernel)

/-- The router takes the address over, but the cycle that wrote it ends in an
error; the next one blames the address on somebody else. -/
theorem not_blameless_unverified :
    ¬ Along SharedSystem.step SharedSystem.Blameless (.start (nasAt "192.168.5.10"))
      [nasAdopted, nasFollowed "192.168.5.10" (.ok .null) .null,
        nasFollowed "192.168.5.10" (.error { message := "timeout" }) (nasAt "192.168.5.46"),
        nasFollowed "192.168.5.46" (.ok .null) .null] := by
  decide +kernel

end LabProbe.Router
