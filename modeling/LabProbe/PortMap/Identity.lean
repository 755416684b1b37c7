import LabProbe.PortMap.Accepted
import LabProbe.PortMap.Distinct

/-!
# Updates and the identifier they address

A PUT cleans the rule with the identifier of its path, so the identifier that
is stored is made anew from the one it addresses. The two are the same for an
identifier that is a slug; one that was cut off behind a hyphen is none. The
loading drops the rules whose identifier reads as no value, and the save keeps
the last hundred. The rules document keeps its identifiers in exactly the
updates that address a slug in a document of which neither takes a rule.
-/

namespace LabProbe.PortMap

open Py Py.Json Hub Check

-- ---------------------------------------------------------------------------
-- Slugs
-- ---------------------------------------------------------------------------

/-- An identifier that `_portmap_rule_id` leaves as it is. -/
structure IsSlug (id : String) : Prop where
  ne : id ≠ ""
  chars : ∀ c ∈ id.toList, Relay.isKeptIdChar c = true
  first : id.toList.head? ≠ some '-'
  last : id.toList.getLast? ≠ some '-'
  length : id.toList.length ≤ 48

theorem slugChar_of_kept {c : Char} (h : Relay.isKeptIdChar c = true) : slugChar c = true := by
  simp only [Relay.isKeptIdChar, Bool.or_eq_true, beq_iff_eq] at h
  simp only [slugChar, Char.isAlphanum, isAlpha_eq, Bool.or_eq_true, beq_iff_eq]
  tauto

theorem hyphenate_of_kept {cs : List Char} (h : ∀ c ∈ cs, slugChar c = true) (inside : Bool) :
    hyphenate inside cs = cs := by
  induction cs generalizing inside with
  | nil => rfl
  | cons c cs ih =>
    obtain ⟨hc, hcs⟩ := List.forall_mem_cons.mp h
    simp [hyphenate, hc, ih hcs]

theorem stripChars_eq_trimMatches (chars : List Char) (s : String) :
    stripChars chars s = Relay.trimMatches chars.contains s := rfl

theorem stripChars_hyphen_iff {s : String} : stripChars ['-'] s = s ↔
    s.toList.head? ≠ some '-' ∧ s.toList.getLast? ≠ some '-' := by
  have hne : ∀ o : Option Char, (∀ c ∈ o, ['-'].contains c = false) ↔ o ≠ some '-' := by
    rintro (_ | c) <;> simp
  rw [stripChars_eq_trimMatches, Relay.trimMatches_eq_self_iff, hne, hne]

theorem stripChars_sublist (chars : List Char) (s : String) :
    (stripChars chars s).toList.Sublist s.toList := by
  rw [stripChars, String.toList_ofList]
  exact (List.rdropWhile_prefix _ _).sublist.trans (List.dropWhile_sublist _)

theorem head_freshId (r : Readings) : r.freshId.toList.head? = some 'p' := by
  simp [Readings.freshId]

theorem stripChars_freshId (r : Readings) : stripChars ['-'] r.freshId ≠ "" := by
  rintro hempty
  have hlist := congrArg String.toList hempty
  have hhead := head_freshId r
  rw [stripChars, String.toList_ofList, String.toList_empty] at hlist
  cases hid : r.freshId.toList with
  | nil => simp [hid] at hhead
  | cons c cs =>
    obtain rfl : c = 'p' := by simpa [hid] using hhead
    rw [hid, List.dropWhile_cons_of_neg (by decide), List.rdropWhile_eq_nil_iff] at hlist
    exact absurd (hlist 'p' List.mem_cons_self) (by decide)

section
variable [Unicode]

theorem slug_of_kept {s : String} (h : ∀ c ∈ s.toList, Relay.isKeptIdChar c = true) :
    slug s = takeChars 48 (stripChars ['-'] s) := by
  have hplain : ∀ c ∈ s.toList, Relay.isPlain c = true := fun c hc =>
    Relay.isPlain_of_isKeptIdChar (h c hc)
  have hslug : ∀ c ∈ s.toList, slugChar c = true := fun c hc => slugChar_of_kept (h c hc)
  have hlower : Unicode.lower (stripChars ['-'] s) = stripChars ['-'] s := by
    have hascii : (stripChars ['-'] s).toList.all (fun c => c.toNat < 128) = true :=
      List.all_eq_true.mpr fun c hc => by simpa using slugChar_ascii (hslug c (mem_stripChars hc))
    rw [Unicode.lower_ascii _ hascii]
    exact Relay.toAsciiLowercase_of_plain fun c hc => hplain c (mem_stripChars hc)
  rw [slug, Relay.strip_of_plain hplain, hyphenate_of_kept hslug, String.ofList_toList, hlower]

theorem portmapRuleId_self_iff (r : Readings) (id : String) :
    portmapRuleId (.str id) r.freshId = id ↔ IsSlug id := by
  have hstr : ((Json.str id).or (.str "")).toStr = id := by
    by_cases h : id = ""
    · subst h
      rfl
    · simp [Json.or, Json.truthy, Json.toStr, h]
  constructor
  · rintro h
    obtain ⟨hne, hkept⟩ := portmapRuleId_kept (.str id) r
    rw [h] at hne hkept
    rw [portmapRuleId, hstr, slug_of_kept hkept] at h
    split at h
    · rename_i hempty
      have htake := congrArg String.toList hempty
      rw [takeChars, String.toList_ofList, String.toList_empty, List.take_eq_nil_iff] at htake
      exact absurd (String.toList_inj.mp (htake.resolve_left (by decide)))
        (h ▸ stripChars_freshId r)
    · have hlist := congrArg String.toList h
      rw [takeChars, String.toList_ofList] at hlist
      have hsub := stripChars_sublist ['-'] id
      have hlength := congrArg List.length hlist
      rw [List.length_take] at hlength
      have hle := hsub.length_le
      have hself := String.toList_inj.mp (hsub.eq_of_length (by omega))
      obtain ⟨hfirst, hlast⟩ := stripChars_hyphen_iff.mp hself
      exact ⟨hne, hkept, hfirst, hlast, by omega⟩
  · rintro ⟨hne, hkept, hfirst, hlast, hlength⟩
    have hslug : slug id = id := by
      rw [slug_of_kept hkept, stripChars_hyphen_iff.mpr ⟨hfirst, hlast⟩, takeChars,
        List.take_of_length_le hlength, String.ofList_toList]
    rw [portmapRuleId, hstr, hslug]
    exact if_neg hne

-- ---------------------------------------------------------------------------
-- The document after an update
-- ---------------------------------------------------------------------------

variable {raw : Option Json} {r : Readings} {id : String} {body : Json} {change : Change}
  {rows : List Entries}

theorem loadPortmapRules_eq (raw : Option Json) :
    loadPortmapRules raw =
      (documentRows raw).filter fun row => cleanSavedValue (ruleId row) != "" := by
  match raw with
  | some (.dict raw) =>
    have hrows : documentRows (some (.dict raw)) =
        ((get raw "rules").list?.getD []).filterMap dict? := rfl
    rw [hrows, loadPortmapRules, loadPortmapRulesDocument]
    cases get raw "rules" <;> rfl
  | some (.list rows) => rfl
  | none | some .null | some (.bool _) | some (.int _) | some (.float ..) | some (.str _) => rfl

theorem length_savedRows (rows : List Entries) : (savedRows rows).length = min 100 rows.length := by
  rw [savedRows, (List.perm_insertionSort _ _).length_eq, Logs.length_cap]

/-- The update is refused and the document is as it was, or the rules have the
identifiers they had and those of other identifiers are as they were. -/
def Preserves (raw : Option Json) (r : Readings) (id : String) (body : Json) : Prop :=
  let call := Call.update r id body
  ((call.handle (loadPortmapRules raw)).toBool = false ∧ handle raw call = raw) ∨
    ((documentRows (handle raw call)).map ruleId).Perm ((documentRows raw).map ruleId) ∧
      ((documentRows (handle raw call)).filter fun row => !named id row).Perm
        ((documentRows raw).filter fun row => !named id row)

theorem updateRule_ok (h : (Call.update r id body).handle rows = .ok change) :
    ∃ old rule, old ∈ rows ∧ ruleId old = .str id ∧
      ruleId rule = .str (portmapRuleId (.str id) r.freshId) ∧
      change.rows = Slots.replace (named id) rule rows := by
  simp only [Call.handle, updateRule, bind_eq_ok, Except.ok.injEq] at h
  obtain ⟨old, hfind, payload, -, rule, haccept, rfl⟩ := h
  obtain ⟨hmem, hold⟩ := findRule_ok hfind
  obtain ⟨hid, -, -⟩ := acceptedRule_ok haccept
  rw [portmapRuleId_update hold] at hid
  exact ⟨old, rule, hmem, hold, hid, rfl⟩

theorem handle_of_ok (h : (Call.update r id body).handle (loadPortmapRules raw) = .ok change) :
    documentRows (handle raw (.update r id body)) = savedRows change.rows := by
  rw [handle, h]
  exact documentRows_save _ _ _

theorem mem_savedRows {row : Entries} (h : row ∈ savedRows rows) : row ∈ rows :=
  (Logs.cap_suffix 100 rows).subset ((List.perm_insertionSort _ _).subset h)

omit [Unicode] in
theorem replace_ne {rule row : Entries} {newId : String} (hid : ruleId rule = .str newId)
    (hne : newId ≠ id) (h : row ∈ Slots.replace (named id) rule rows) : ruleId row ≠ .str id := by
  obtain ⟨old, -, rfl⟩ := List.mem_map.mp h
  by_cases hnamed : named id old = true
  · simp [hnamed, hid, hne]
  · rw [if_neg hnamed]
    exact fun heq => hnamed (named_iff.mpr heq)

/-- **Updates and identifiers.** An update that is accepted preserves the
identifiers if and only if it addresses a slug, in a document of at most a
hundred rules that all have an identifier. -/
theorem preserves_iff (raw : Option Json) (r : Readings) (id : String) (body : Json) :
    Preserves raw r id body ↔
      (((Call.update r id body).handle (loadPortmapRules raw)).toBool = true →
        IsSlug id ∧ (documentRows raw).length ≤ 100 ∧
          ∀ row ∈ documentRows raw, cleanSavedValue (ruleId row) ≠ "") := by
  cases h : (Call.update r id body).handle (loadPortmapRules raw) with
  | error e =>
    have hsame : handle raw (.update r id body) = raw := by rw [handle, h]
    have hfalse : (Except.error e : Except String Change).toBool ≠ true := Bool.false_ne_true
    exact iff_of_true (.inl ⟨by rw [h]; rfl, hsame⟩) fun hok => absurd hok hfalse
  | ok change =>
    obtain ⟨old, rule, hmem, hold, hid, hrows⟩ := updateRule_ok h
    have hafter := handle_of_ok h
    rw [hrows] at hafter
    have hload := loadPortmapRules_eq raw
    have htrue : (Except.ok change : Except String Change).toBool = true := rfl
    simp only [Preserves, h, htrue, Bool.true_eq_false, false_and, false_or, forall_const,
      ← portmapRuleId_self_iff r]
    constructor
    · rintro ⟨hids, -⟩
      have hlength := hids.length_eq
      have hloaded : (loadPortmapRules raw).length ≤ (documentRows raw).length :=
        (loadPortmapRules_sublist raw).length_le
      rw [List.length_map, List.length_map, hafter, length_savedRows, Slots.replace,
        List.length_map] at hlength
      refine ⟨?_, by omega, ?_⟩
      · by_contra hne
        have hold' : Json.str id ∈ (documentRows raw).map ruleId :=
          List.mem_map.mpr ⟨old, (loadPortmapRules_sublist raw).subset hmem, hold⟩
        obtain ⟨row, hrow, hrowid⟩ := List.mem_map.mp (hids.mem_iff.mpr hold')
        rw [hafter] at hrow
        exact replace_ne hid hne (mem_savedRows hrow) hrowid
      · have hall := (loadPortmapRules_sublist raw).eq_of_length (by omega)
        intro row hrow
        rw [← hall, hload] at hrow
        simpa using (List.mem_filter.mp hrow).2
    · rintro ⟨hself, hle, hnamed⟩
      rw [hself] at hid
      have hall : loadPortmapRules raw = documentRows raw := by
        rw [hload, List.filter_eq_self]
        exact fun row hrow => by simpa using hnamed row hrow
      rw [hall] at hafter
      have hlength : (Slots.replace (named id) rule (documentRows raw)).length ≤ 100 := by
        simpa [Slots.replace] using hle
      have hperm := savedRows_perm hlength
      rw [← hafter] at hperm
      refine ⟨(hperm.map _).trans (.of_eq ?_), (hperm.filter _).trans (.of_eq ?_)⟩
      · exact Slots.map_replace fun row _ hrow => hid.trans (named_iff.mp hrow).symm
      · exact Slots.filter_replace (named_iff.mpr hid) _

end

section
local instance asciiIdentity : Unicode := .ascii

def longId : String := String.ofList (List.replicate 47 'a')

/-- The document after a rule is created whose identifier is cut off behind a
hyphen. -/
def cutDocument : Option Json :=
  handle none (.create exampleReadings (exampleBody (longId ++ "-b") 20000))

/-- Another port for that rule. -/
def moveCut : Call := .update exampleReadings (longId ++ "-") (exampleBody "" 20001)

/-- The update gives the rule another identifier. -/
theorem update_renames :
    (documentRows cutDocument).map ruleId = [.str (longId ++ "-")] ∧
      (documentRows (handle cutDocument moveCut)).map ruleId = [.str longId] ∧
      ¬ Preserves cutDocument exampleReadings (longId ++ "-") (exampleBody "" 20001) := by
  have hbefore : (documentRows cutDocument).map ruleId = [.str (longId ++ "-")] := by
    decide +kernel
  have hafter : (documentRows (handle cutDocument moveCut)).map ruleId = [.str longId] := by
    decide +kernel
  refine ⟨hbefore, hafter, ?_⟩
  rintro (⟨-, hsame⟩ | ⟨hids, -⟩)
  · have hsame' : handle cutDocument moveCut = cutDocument := hsame
    rw [hsame', hbefore] at hafter
    revert hafter
    decide +kernel
  · have hids' : ((documentRows (handle cutDocument moveCut)).map ruleId).Perm
        ((documentRows cutDocument).map ruleId) := hids
    rw [hbefore, hafter, List.singleton_perm_singleton] at hids'
    revert hids'
    decide +kernel

end

end LabProbe.PortMap
