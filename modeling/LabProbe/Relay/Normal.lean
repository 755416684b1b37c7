import LabProbe.Relay.Agree
import LabProbe.Relay.Manager

/-!
# Normalising a rule again

`normalize_rule` of a rule in its normal form changes two things only: an
address with white space directly inside its brackets, and the server of a
STUN rule whose protocol was blank, which was chosen before the protocol got
its default. Any other rule is stored, written to the configuration file, read
back and sent again as one and the same.
-/

namespace LabProbe.Relay

open Py Py.Json Check

-- ---------------------------------------------------------------------------
-- Texts in their normal form
-- ---------------------------------------------------------------------------

theorem trim_trim (s : String) : trim (trim s) = trim s := by
  simp only [trim, trimMatches, String.toList_ofList, trimmed_trimmed]

/-- A change of characters that keeps white space keeps a trimmed text
trimmed. -/
theorem trim_map {f : Char → Char} (hf : ∀ c, isWhitespace (f c) = isWhitespace c) {s : String}
    (h : trim s = s) : trim (String.ofList (s.toList.map f)) = String.ofList (s.toList.map f) := by
  rw [trim, trimMatches_eq_self_iff] at h ⊢
  simp only [String.toList_ofList, List.head?_map, List.getLast?_map, Option.mem_def,
    Option.map_eq_some_iff, forall_exists_index, and_imp, forall_apply_eq_imp_iff₂, hf]
  exact h

theorem isWhitespace_of_letter {c : Char} (h : 65 ≤ c.toNat) (h' : c.toNat ≤ 122) :
    isWhitespace c = false := by
  simp only [isWhitespace, isSpace, Bool.and_eq_false_iff, Bool.or_eq_false_iff,
    decide_eq_false_iff_not, beq_eq_false_iff_ne]
  omega

theorem isWhitespace_toLower (c : Char) : isWhitespace c.toLower = isWhitespace c := by
  rcases toLower_cases c with h | ⟨hlow, hhigh, h⟩
  · rw [h]
  · rw [isWhitespace_of_letter hlow (by omega), isWhitespace_of_letter] <;> omega

theorem isWhitespace_toUpper (c : Char) : isWhitespace c.toUpper = isWhitespace c := by
  rcases toUpper_cases c with h | ⟨hlow, hhigh, h⟩
  · rw [h]
  · rw [isWhitespace_of_letter (c := c) (by omega) hhigh, isWhitespace_of_letter] <;> omega

theorem toLower_toLower (c : Char) : c.toLower.toLower = c.toLower :=
  toLower_eq_self_iff.mpr (isUpper_toLower c)

/-- A change of characters that keeps white space and changes nothing twice is
in its normal form with the trimming before it. -/
theorem map_trim_idem {f : Char → Char} (hspace : ∀ c, isWhitespace (f c) = isWhitespace c)
    (hf : ∀ c, f (f c) = f c) (s : String) :
    String.ofList ((trim (String.ofList ((trim s).toList.map f))).toList.map f) =
      String.ofList ((trim s).toList.map f) := by
  rw [trim_map hspace (trim_trim s), String.toList_ofList, List.map_map]
  congr 2
  exact funext hf

theorem toAsciiLowercase_trim_idem (s : String) :
    toAsciiLowercase (trim (toAsciiLowercase (trim s))) = toAsciiLowercase (trim s) :=
  map_trim_idem isWhitespace_toLower toLower_toLower s

theorem toAsciiUppercase_trim_idem (s : String) :
    toAsciiUppercase (trim (toAsciiUppercase (trim s))) = toAsciiUppercase (trim s) :=
  map_trim_idem isWhitespace_toUpper toUpper_toUpper s

theorem toAsciiUppercase_eq_empty {s : String} : toAsciiUppercase s = "" ↔ s = "" := by
  rw [toAsciiUppercase, asciiUpper, ← String.toList_inj, ← String.toList_inj, String.toList_ofList]
  simp

theorem replaceAll_char (c d : Char) (cs : List Char) :
    replaceAll [c] [d] 0 cs = cs.map fun e => if e = c then d else e := by
  induction cs with
  | nil => rfl
  | cons e cs ih =>
    by_cases h : e = c
    · simp [replaceAll, h, ih]
    · have hprefix : [c].isPrefixOf (e :: cs) = false := by simp [List.isPrefixOf, Ne.symm h]
      simp [replaceAll, hprefix, h, ih]

theorem normalizeMac_idem (s : String) : normalizeMac (normalizeMac s) = normalizeMac s := by
  have hmap : ∀ t : String, normalizeMac t = String.ofList
      ((trim t).toList.map fun c => Char.toLower (if c = '-' then ':' else c)) := by
    intro t
    rw [normalizeMac, replaceAll_char, toAsciiLowercase, asciiLower, String.toList_ofList,
      List.map_map]
    rfl
  rw [hmap, hmap, map_trim_idem]
  · intro c
    by_cases h : c = '-'
    · subst h
      decide
    · rw [if_neg h, isWhitespace_toLower]
  · intro c
    by_cases h : c = '-'
    · subst h
      decide
    · rw [if_neg h]
      split
      · rename_i heq
        rcases toLower_cases c with hsame | ⟨hlow, -, hlower⟩
        · exact absurd (hsame.symm.trans heq) h
        · simp [heq] at hlower
          omega
      · exact toLower_toLower c

-- ---------------------------------------------------------------------------
-- Brackets
-- ---------------------------------------------------------------------------

/-- White space directly behind the opening or before the closing brackets of
a trimmed text. -/
def innerBlank (s : String) : Bool :=
  let cs := (trim s).toList
  (cs.find? (· != '[')).any isWhitespace || (cs.reverse.find? (· != ']')).any isWhitespace

theorem head?_dropWhile (p : Char → Bool) (cs : List Char) :
    (cs.dropWhile p).head? = cs.find? (fun c => !p c) := by
  induction cs with
  | nil => rfl
  | cons c cs ih => cases h : p c <;> simp [h, ih]

theorem head?_rdropWhile {p q : Char → Bool} (hpq : ∀ c, p c = true → q c = false) {cs : List Char} :
    (∀ c ∈ (cs.rdropWhile p).head?, q c = false) ↔ ∀ c ∈ cs.head?, q c = false := by
  obtain ⟨rest, hrest⟩ := List.rdropWhile_prefix p cs
  cases hkept : cs.rdropWhile p with
  | nil =>
    have hall := List.rdropWhile_eq_nil_iff.mp hkept
    refine iff_of_true (by simp) fun c hc => hpq c (hall c (List.mem_of_mem_head? hc))
  | cons c kept =>
    rw [hkept] at hrest
    simp [← hrest]

theorem getLast?_between {p q r : Char → Bool} (hr : ∀ c, r c = true → q c = false) {cs : List Char} :
    (∀ c ∈ ((cs.dropWhile r).rdropWhile p).getLast?, q c = false) ↔
      ∀ c ∈ cs.reverse.find? (fun c => !p c), q c = false := by
  have hlast : ((cs.dropWhile r).rdropWhile p).getLast? =
      (cs.dropWhile r).reverse.find? fun c => !p c := by
    rw [List.rdropWhile, List.getLast?_reverse, head?_dropWhile]
  have hsplit : cs.reverse.find? (fun c => !p c) =
      ((cs.dropWhile r).reverse.find? fun c => !p c).or
        ((cs.takeWhile r).reverse.find? fun c => !p c) := by
    conv_lhs => rw [← List.takeWhile_append_dropWhile (p := r) (l := cs)]
    rw [List.reverse_append, List.find?_append]
  rw [hlast, hsplit]
  cases (cs.dropWhile r).reverse.find? fun c => !p c with
  | some c => simp
  | none =>
    refine iff_of_true (by simp) fun c hc => ?_
    have hmem := List.mem_of_find?_eq_some hc
    exact hr c (List.mem_takeWhile_imp (List.mem_reverse.mp hmem))

theorem toList_stripBrackets (s : String) :
    (stripBrackets s).toList = (((trim s).toList.dropWhile (· == '[')).rdropWhile (· == ']')) := by
  simp [stripBrackets, trimEndMatches, trimStartMatches]

theorem dropWhile_of_head {p : Char → Bool} {cs : List Char} (h : ∀ c ∈ cs.head?, p c = false) :
    cs.dropWhile p = cs := by
  cases cs with
  | nil => rfl
  | cons c cs => simp [h c rfl]

theorem stripBrackets_self_iff_trim (s : String) :
    stripBrackets (stripBrackets s) = stripBrackets s ↔ trim (stripBrackets s) = stripBrackets s := by
  have hin : (trim (stripBrackets s)).toList.Sublist (stripBrackets s).toList := by
    rw [trim, trimMatches, String.toList_ofList]
    exact (List.rdropWhile_prefix _ _).sublist.trans (List.dropWhile_sublist _)
  have hout : (stripBrackets (stripBrackets s)).toList.Sublist (trim (stripBrackets s)).toList := by
    rw [toList_stripBrackets]
    exact (List.rdropWhile_prefix _ _).sublist.trans (List.dropWhile_sublist _)
  constructor
  · rintro h
    rw [h] at hout
    exact String.toList_inj.mp (hin.antisymm hout)
  · rintro h
    have hhead : ∀ c ∈ (stripBrackets s).toList.head?, (c == '[') = false := by
      rw [toList_stripBrackets, head?_rdropWhile (by simp +contextual), head?_dropWhile]
      rintro c hc
      simpa using List.find?_some hc
    rw [← String.toList_inj, toList_stripBrackets, h, dropWhile_of_head hhead,
      toList_stripBrackets, List.rdropWhile_idempotent]

theorem stripBrackets_self_iff (s : String) :
    stripBrackets (stripBrackets s) = stripBrackets s ↔ innerBlank s = false := by
  have hopen : ∀ c : Char, (c == '[') = true → isWhitespace c = false := by
    simp only [beq_iff_eq, forall_eq]
    decide
  have hclose : ∀ c : Char, (c == ']') = true → isWhitespace c = false := by
    simp only [beq_iff_eq, forall_eq]
    decide
  have hany : ∀ o : Option Char,
      (∀ c ∈ o, isWhitespace c = false) ↔ o.any isWhitespace = false := by
    rintro (_ | c) <;> simp
  rw [stripBrackets_self_iff_trim, trim, trimMatches_eq_self_iff, toList_stripBrackets,
    head?_rdropWhile hclose, head?_dropWhile, getLast?_between hopen, innerBlank,
    Bool.or_eq_false_iff, ← hany, ← hany]
  rfl

-- ---------------------------------------------------------------------------
-- Rules in their normal form
-- ---------------------------------------------------------------------------

/-- The texts of a rule are trimmed and in their case. -/
structure Rule.Settled (r : Rule) : Prop where
  kind : toAsciiLowercase (trim r.kind) = r.kind
  kind_ne : r.kind ≠ ""
  id : toAsciiLowercase (trim r.id) = r.id
  name : trim r.name = r.name
  mode : toAsciiLowercase (trim r.mode) = r.mode
  targetMode : toAsciiLowercase (trim r.targetMode) = r.targetMode
  targetIpv4 : trim r.targetIpv4 = r.targetIpv4
  targetIpv6Suffix : toAsciiLowercase (trim r.targetIpv6Suffix) = r.targetIpv6Suffix
  targetMac : normalizeMac r.targetMac = r.targetMac
  transportProtocol : toAsciiUppercase (trim r.transportProtocol) = r.transportProtocol
  serviceType : trim r.serviceType = r.serviceType
  forwardMode : toAsciiLowercase (trim r.forwardMode) = r.forwardMode
  stunServer : trim r.stunServer = r.stunServer

theorem normalizeTexts_of_settled {r : Rule} (h : r.Settled) :
    normalizeTexts r = { r with targetIpv6 := stripBrackets r.targetIpv6 } := by
  simp only [normalizeTexts, h.kind, if_neg h.kind_ne, h.id, h.name, h.mode, h.targetMode,
    h.targetIpv4, h.targetIpv6Suffix, h.targetMac, h.transportProtocol, h.serviceType,
    h.forwardMode, h.stunServer]

theorem settled_normalizeTexts (rule : Rule) : (normalizeTexts rule).Settled := by
  unfold normalizeTexts
  refine ⟨?_, ?_, toAsciiLowercase_trim_idem _, trim_trim _, toAsciiLowercase_trim_idem _,
    toAsciiLowercase_trim_idem _, trim_trim _, toAsciiLowercase_trim_idem _, normalizeMac_idem _,
    toAsciiUppercase_trim_idem _, trim_trim _, toAsciiLowercase_trim_idem _, trim_trim _⟩
  · dsimp only
    split
    · decide +kernel
    · exact toAsciiLowercase_trim_idem _
  · dsimp only
    split
    · decide
    · assumption

theorem trim_usableServer (protocol : String) {server : String} (h : trim server = server) :
    trim (usableServer protocol server) = usableServer protocol server := by
  have hconst : ∀ t, trim (defaultStunServer t) = defaultStunServer t := by
    intro t
    unfold defaultStunServer
    split <;> decide +kernel
  unfold usableServer
  split
  · exact hconst protocol
  · exact h

theorem Rule.Settled.stun {r : Rule} (h : r.Settled) : (normalizeStun r).Settled :=
  { h with
    mode := (by decide +kernel : toAsciiLowercase (trim "stun") = "stun")
    targetMode := (by decide +kernel : toAsciiLowercase (trim "ipv4") = "ipv4")
    forwardMode := (by decide +kernel : toAsciiLowercase (trim "router_native") = "router_native")
    stunServer := trim_usableServer _ h.stunServer }

structure Rule.Normal (r : Rule) : Prop extends r.Settled where
  protocol_ne : r.transportProtocol ≠ ""
  stun : r.kind = "stun" → r.mode = "stun" ∧ r.targetMode = "ipv4" ∧ r.forwardMode = "router_native"
  connections : 1 ≤ r.maxConnections ∧ r.maxConnections ≤ 256
  idle : 30 ≤ r.idleTimeoutSec ∧ r.idleTimeoutSec ≤ 3600

theorem normal_normalizeRule (rule : Rule) : (normalizeRule rule).Normal := by
  obtain ⟨texts, hsettled, hstun, heq⟩ : ∃ texts : Rule, texts.Settled ∧
      (texts.kind = "stun" → texts.mode = "stun" ∧ texts.targetMode = "ipv4" ∧
        texts.forwardMode = "router_native") ∧
      normalizeRule rule = { texts with
        transportProtocol := if texts.transportProtocol = "" then "TCP" else texts.transportProtocol
        maxConnections := max 1 (min 256 texts.maxConnections)
        idleTimeoutSec := max 30 (min 3600 texts.idleTimeoutSec) } := by
    have hsettled := settled_normalizeTexts rule
    refine ⟨if (normalizeTexts rule).kind = "stun" then normalizeStun (normalizeTexts rule)
      else normalizeTexts rule, ?_, ?_, rfl⟩
    · split
      · exact hsettled.stun
      · exact hsettled
    · split
      · exact fun _ => ⟨rfl, rfl, rfl⟩
      · rename_i hkind
        exact fun h => absurd h hkind
  rw [heq]
  refine { hsettled with transportProtocol := ?_, protocol_ne := ?_, stun := hstun,
                         connections := ?_, idle := ?_ }
  · dsimp only
    split
    · decide +kernel
    · exact hsettled.transportProtocol
  · dsimp only
    split
    · decide
    · assumption
  · simp
  · simp

theorem normalizeRule_of_normal {r : Rule} (h : r.Normal) : normalizeRule r =
    { r with
      targetIpv6 := stripBrackets r.targetIpv6
      stunServer := if r.kind = "stun" then usableServer r.transportProtocol r.stunServer
        else r.stunServer } := by
  have hconnections : max 1 (min 256 r.maxConnections) = r.maxConnections := by
    have := h.connections
    omega
  have hidle : max 30 (min 3600 r.idleTimeoutSec) = r.idleTimeoutSec := by
    have := h.idle
    omega
  unfold normalizeRule
  rw [normalizeTexts_of_settled h.toSettled]
  by_cases hkind : r.kind = "stun"
  · obtain ⟨hmode, htarget, hforward⟩ := h.stun hkind
    simp only [normalizeStun, hkind, if_true, if_neg h.protocol_ne, hconnections, hidle, hmode,
      htarget, hforward]
  · simp only [if_neg hkind, if_neg h.protocol_ne, hconnections, hidle]

theorem normalizeRule_self_iff {r : Rule} (h : r.Normal) : normalizeRule r = r ↔
    stripBrackets r.targetIpv6 = r.targetIpv6 ∧
      (r.kind = "stun" → usableServer r.transportProtocol r.stunServer = r.stunServer) := by
  rw [normalizeRule_of_normal h]
  constructor
  · rintro heq
    have hbrackets := congrArg Rule.targetIpv6 heq
    have hserver := congrArg Rule.stunServer heq
    refine ⟨hbrackets, fun hkind => ?_⟩
    rwa [if_pos hkind] at hserver
  · rintro ⟨hbrackets, hserver⟩
    have hsame : (if r.kind = "stun" then usableServer r.transportProtocol r.stunServer
        else r.stunServer) = r.stunServer := by
      split
      · exact hserver ‹_›
      · rfl
    rw [hbrackets, hsame]

/-- The server is chosen for a blank protocol: one that has no TCP, for a
protocol that becomes TCP. -/
def DefaultsLate (rule : Rule) : Prop :=
  toAsciiLowercase (trim rule.kind) = "stun" ∧ trim rule.transportProtocol = "" ∧
    (trim rule.stunServer = "" ∨ trim rule.stunServer = legacyTcpStunServer)

theorem usableServer_self_iff (protocol server : String) :
    usableServer (if protocol = "" then "TCP" else protocol) (usableServer protocol server) =
        usableServer protocol server ↔
      ¬ (protocol = "" ∧ (server = "" ∨ server = legacyTcpStunServer)) := by
  have htcp : defaultStunServer "TCP" = defaultTcpStunServer := by decide +kernel
  have hudp : defaultStunServer "" = legacyTcpStunServer := by decide +kernel
  have hne : defaultTcpStunServer ≠ legacyTcpStunServer := by decide
  by_cases hprotocol : protocol = ""
  · subst hprotocol
    have hfirst : usableServer "" server = if server = "" then legacyTcpStunServer else server := by
      simp [usableServer, hudp]
    by_cases hserver : server = "" ∨ server = legacyTcpStunServer
    · have hlegacy : usableServer "" server = legacyTcpStunServer := by
        rcases hserver with rfl | rfl
        · exact hfirst
        · rw [hfirst]
          exact if_neg (by decide)
      have hsecond : usableServer "TCP" legacyTcpStunServer = defaultTcpStunServer := by
        simp [usableServer, htcp]
      rw [if_pos rfl, hlegacy, hsecond]
      simp [hne, hserver]
    · obtain ⟨hempty, hlegacy⟩ := not_or.mp hserver
      simp [usableServer, hempty, hlegacy]
  · rw [if_neg hprotocol]
    refine iff_of_true ?_ fun h => hprotocol h.1
    by_cases hserver : server = "" ∨ protocol = "TCP" ∧ server = legacyTcpStunServer
    · have hfirst : usableServer protocol server = defaultStunServer protocol := if_pos hserver
      rw [hfirst, usableServer, ite_self]
    · have hfirst : usableServer protocol server = server := if_neg hserver
      rw [hfirst, hfirst]

section

variable (rule : Rule)

@[simp]
theorem normalizeRule_targetIpv6 :
    (normalizeRule rule).targetIpv6 = stripBrackets rule.targetIpv6 := by
  unfold normalizeRule
  by_cases h : (normalizeTexts rule).kind = "stun"
  · simp only [if_pos h]
    rfl
  · simp only [if_neg h]
    rfl

theorem normalizeRule_kind : (normalizeRule rule).kind = (normalizeTexts rule).kind := by
  unfold normalizeRule
  generalize normalizeTexts rule = texts
  by_cases h : texts.kind = "stun"
  · simp only [if_pos h, normalizeStun]
  · simp only [if_neg h]

theorem kind_stun_iff :
    (normalizeTexts rule).kind = "stun" ↔ toAsciiLowercase (trim rule.kind) = "stun" := by
  simp only [normalizeTexts]
  split
  · rename_i h
    rw [h]
    decide
  · rfl

theorem normalizeRule_stun (h : (normalizeTexts rule).kind = "stun") :
    (normalizeRule rule).transportProtocol =
        (if (normalizeTexts rule).transportProtocol = "" then "TCP"
          else (normalizeTexts rule).transportProtocol) ∧
      (normalizeRule rule).stunServer =
        usableServer (normalizeTexts rule).transportProtocol (normalizeTexts rule).stunServer := by
  unfold normalizeRule
  simp only [if_pos h]
  exact ⟨rfl, rfl⟩

/-- A second pass changes a rule with blanks inside the brackets of its
address, and one whose server was chosen for a blank protocol. -/
theorem normalizeRule_idem_iff :
    normalizeRule (normalizeRule rule) = normalizeRule rule ↔
      innerBlank rule.targetIpv6 = false ∧ ¬ DefaultsLate rule := by
  have hblank : (normalizeTexts rule).transportProtocol = "" ↔ trim rule.transportProtocol = "" :=
    toAsciiUppercase_eq_empty
  rw [normalizeRule_self_iff (normal_normalizeRule rule), normalizeRule_targetIpv6,
    stripBrackets_self_iff, normalizeRule_kind, DefaultsLate, ← kind_stun_iff, ← hblank]
  refine and_congr_right fun _ => ?_
  by_cases h : (normalizeTexts rule).kind = "stun"
  · obtain ⟨hprotocol, hserver⟩ := normalizeRule_stun rule h
    rw [hprotocol, hserver, usableServer_self_iff]
    simp only [h, forall_const, true_and]
    rfl
  · simp [h]

end

-- ---------------------------------------------------------------------------
-- Reading a stored rule
-- ---------------------------------------------------------------------------

/-- The numbers of the rule fit their types. -/
def Rule.Typed (r : Rule) : Prop :=
  r.listenPort < 2 ^ 16 ∧ r.targetPort < 2 ^ 16 ∧ (∀ x ∈ r.expiresAt, x < 2 ^ 64) ∧
    r.maxConnections < 2 ^ 32 ∧ r.idleTimeoutSec < 2 ^ 64

theorem readUnsigned_int {bits n : Nat} (h : n < 2 ^ bits) : readUnsigned bits (.int n) = some n :=
  if_pos ⟨by omega, by exact_mod_cast h⟩

theorem readOptional_toJson {r : Rule} (h : ∀ x ∈ r.expiresAt, x < 2 ^ 64) :
    readOptional 64 r.toJson "expiresAt" = some r.expiresAt := by
  have hget : Dict.get? r.toJson "expiresAt" =
      some ((r.expiresAt.map fun n => Json.int n).getD .null) := rfl
  unfold readOptional
  rw [hget]
  cases hexpires : r.expiresAt with
  | none => rfl
  | some x => exact congrArg (Option.map some) (readUnsigned_int (h x hexpires))

theorem readText_of_get {d : Entries} {key default s : String}
    (h : Dict.get? d key = some (.str s)) : readText d key default = some s := by
  rw [readText, h]

theorem readBool_of_get {d : Entries} {key : String} {default b : Bool}
    (h : Dict.get? d key = some (.bool b)) : readBool d key default = some b := by
  rw [readBool, h]

theorem readNat_of_get {bits default n : Nat} {d : Entries} {key : String} (hn : n < 2 ^ bits)
    (h : Dict.get? d key = some (.int n)) : readNat bits d key default = some n := by
  rw [readNat, h]
  exact readUnsigned_int hn

theorem readRule_toJson {r : Rule} (h : r.Typed) : readRule r.toJson = some r := by
  obtain ⟨hlisten, htarget, hexpires, hconnections, hidle⟩ := h
  unfold readRule
  rw [readText_of_get (s := r.kind) rfl, readText_of_get (s := r.id) rfl,
    readText_of_get (s := r.name) rfl, readBool_of_get (b := r.enabled) rfl,
    readText_of_get (s := r.mode) rfl, readNat_of_get hlisten rfl,
    readText_of_get (s := r.targetMode) rfl, readText_of_get (s := r.targetIpv4) rfl,
    readText_of_get (s := r.targetIpv6) rfl, readText_of_get (s := r.targetIpv6Suffix) rfl,
    readText_of_get (s := r.targetMac) rfl, readNat_of_get htarget rfl,
    readText_of_get (s := r.transportProtocol) rfl, readText_of_get (s := r.serviceType) rfl,
    readText_of_get (s := r.forwardMode) rfl, readText_of_get (s := r.stunServer) rfl,
    readBool_of_get (b := r.preferCurrentPrefix) rfl, readOptional_toJson hexpires,
    readNat_of_get hconnections rfl, readNat_of_get hidle rfl]
  rfl

theorem normalizeRule_numbers (rule : Rule) :
    (normalizeRule rule).listenPort = rule.listenPort ∧
      (normalizeRule rule).targetPort = rule.targetPort ∧
      (normalizeRule rule).expiresAt = rule.expiresAt := by
  have htexts : (normalizeTexts rule).listenPort = rule.listenPort ∧
      (normalizeTexts rule).targetPort = rule.targetPort ∧
      (normalizeTexts rule).expiresAt = rule.expiresAt := by
    simp only [normalizeTexts, and_self]
  rw [← htexts.1, ← htexts.2.1, ← htexts.2.2]
  unfold normalizeRule
  generalize normalizeTexts rule = texts
  by_cases h : texts.kind = "stun"
  · simp only [if_pos h, normalizeStun, and_self]
  · simp only [if_neg h, and_self]

theorem typed_normalizeRule {rule : Rule} (h : rule.Typed) : (normalizeRule rule).Typed := by
  have hnormal := normal_normalizeRule rule
  obtain ⟨hlisten, htarget, hexpires, -, -⟩ := h
  obtain ⟨hsame, hsame', hsame''⟩ := normalizeRule_numbers rule
  rw [← hsame] at hlisten
  rw [← hsame'] at htarget
  rw [← hsame''] at hexpires
  generalize normalizeRule rule = q at hnormal hlisten htarget hexpires
  exact ⟨hlisten, htarget, hexpires, hnormal.connections.2.trans_lt (by decide),
    hnormal.idle.2.trans_lt (by decide)⟩

-- ---------------------------------------------------------------------------
-- Applying a rule again
-- ---------------------------------------------------------------------------

def unchanged (rule : Rule) : Entries :=
  answer rule.id [("state", .str "running"), ("unchanged", .bool true)]

/-- The rule applied is in its normal form, it is the one read back from the
configuration file, and sending it again as it was given or as it is stored
leaves a manager that runs it as it is. -/
structure Settles (rule : Rule) : Prop where
  idempotent : normalizeRule (normalizeRule rule) = normalizeRule rule
  reloaded : readRule (normalizeRule rule).toJson = some (normalizeRule rule)
  again : ∀ (m : Manager) (s : Surroundings), (normalizeRule rule).enabled = true →
    m.checks (normalizeRule rule) = .ok () →
    Dict.get? m.rules (normalizeRule rule).id = some (normalizeRule rule) →
    (Dict.get? m.runtimes (normalizeRule rule).id).isSome = true →
    ∀ sent ∈ [rule, normalizeRule rule], m.upsert s sent = (.ok (unchanged (normalizeRule rule)), m)

theorem upsert_unchanged {m : Manager} {s : Surroundings} {sent q : Rule}
    (hsent : normalizeRule sent = q) (henabled : q.enabled = true) (hchecks : m.checks q = .ok ())
    (hrule : Dict.get? m.rules q.id = some q) (hruns : (Dict.get? m.runtimes q.id).isSome = true) :
    m.upsert s sent = (.ok (unchanged q), m) := by
  have hrunning : m.runsAlready q = true := by
    simp [Manager.runsAlready, henabled, hrule, hruns]
  rw [Manager.upsert, hsent, Manager.accept, hchecks]
  exact if_pos hrunning

theorem rule_settles_iff (rule : Rule) (h : rule.Typed) :
    Settles rule ↔ innerBlank rule.targetIpv6 = false ∧ ¬ DefaultsLate rule := by
  rw [← normalizeRule_idem_iff]
  refine ⟨Settles.idempotent, fun hidem => ⟨hidem, readRule_toJson (typed_normalizeRule h), ?_⟩⟩
  rintro m s henabled hchecks hrule hruns sent hsent
  have hsame : normalizeRule sent = normalizeRule rule := by
    rcases List.mem_pair.mp hsent with rfl | rfl
    · rfl
    · exact hidem
  exact upsert_unchanged hsame henabled hchecks hrule hruns

def webRule : Rule :=
  { id := "web", name := "Web", enabled := true, listenPort := 20001, targetIpv4 := "192.168.1.20"
    targetPort := 80 }

theorem settles_webRule : Settles webRule :=
  (rule_settles_iff webRule ⟨by decide, by decide, by simp [webRule], by decide, by decide⟩).mpr
    ⟨by decide +kernel, fun h => absurd h.1 (by decide +kernel)⟩

/-- The server is chosen for no protocol, and again for TCP. -/
theorem not_settles_stun :
    (normalizeRule { webRule with kind := "stun", transportProtocol := "", stunServer := "" }).stunServer
        = defaultUdpStunServer ∧
      ¬ Settles { webRule with kind := "stun", transportProtocol := "", stunServer := "" } := by
  refine ⟨by decide +kernel, fun h => ?_⟩
  have hserver := congrArg Rule.stunServer h.idempotent
  revert hserver
  decide +kernel

-- the brackets go first, and the white space inside them stays
example :
    (normalizeRule { webRule with targetIpv6 := "[ ::1 ]" }).targetIpv6 = " ::1 " ∧
      ¬ Settles { webRule with targetIpv6 := "[ ::1 ]" } := by
  refine ⟨by decide +kernel, fun h => ?_⟩
  have haddress := congrArg Rule.targetIpv6 h.idempotent
  revert haddress
  decide +kernel

end LabProbe.Relay
