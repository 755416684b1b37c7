import LabProbe.Lib.Spans
import LabProbe.Hub.AddressText
import LabProbe.Relay.Agree
import LabProbe.Relay.Neighbors

/-!
# The firewall the agent sets up

The agent adds a forwarding and an inbound rule unless a dump of the firewall
configuration has them already, and it looks for them as texts in the whole
dump. The sections and options of a dump are read here as UCI writes them, by
`uci show` or in the file. What is found in the dump is found in one of its
lines, but the lines of two options may be of two sections, and a line may
have the text as part of something longer. A check is right where a line is
missing, or where the lines of all options stand together.
-/

namespace LabProbe.Relay

open Py

variable {raw needle : String} {sep : Char} {cs n : List Char} {lines : List (List Char)}

-- ---------------------------------------------------------------------------
-- The checks
-- ---------------------------------------------------------------------------

/-- The ways an option with a value is looked for. -/
def optionForms (option value : String) : List String :=
  [option ++ "='" ++ value ++ "'", option ++ "=\"" ++ value ++ "\"", option ++ " '" ++ value ++ "'",
   option ++ " \"" ++ value ++ "\""]

def containsAny (text : List Char) (needles : List String) : Bool :=
  needles.any fun needle => contains needle.toList text

def srcWg : List String := optionForms "src" "wg" ++ optionForms "src" "labprobe_wg"

def parseUciFirewallHasWgForwarding (raw : String) : Bool :=
  let lower := (toAsciiLowercase raw).toList
  containsAny lower srcWg && containsAny lower (optionForms "dest" "lan")

def parseUciFirewallHasWgWanForwarding (raw : String) : Bool :=
  let lower := (toAsciiLowercase raw).toList
  containsAny lower srcWg && containsAny lower (optionForms "dest" "wan")

def portForms (port : UInt16) : List String :=
  optionForms "dest_port" (toString port.toNat) ++ ["dest_port=" ++ toString port.toNat]

def srcWan : List String := optionForms "src" "wan" ++ ["src=wan"]

def protoUdp : List String := optionForms "proto" "udp" ++ ["proto=udp"]

def parseUciFirewallHasWgInboundRule (raw : String) (port : UInt16) : Bool :=
  let lower := (toAsciiLowercase raw).toList
  containsAny lower (portForms port) && containsAny lower srcWan && containsAny lower protoUdp

-- ---------------------------------------------------------------------------
-- The configuration
-- ---------------------------------------------------------------------------

/-- A section is named in each line of `uci show`, and begins with its own line
in the file. -/
inductive SectionKey where
  | named (name : List Char)
  | nth (n : Nat)
  deriving DecidableEq

def unquote (value : List Char) : String :=
  match value with
  | '\'' :: rest => String.ofList (if rest.getLast? = some '\'' then rest.dropLast else value)
  | '"' :: rest => String.ofList (if rest.getLast? = some '"' then rest.dropLast else value)
  | _ => String.ofList value

def shownOption (line : List Char) : Option (SectionKey × String × String) :=
  let path := line.takeWhile (· ≠ '=')
  match splitOn '.' path, line.dropWhile (· ≠ '=') with
  | [_, name, option], _ :: value => some (.named name, String.ofList option, unquote value)
  | _, _ => none

/-- The options of the lines behind some sections of the file. -/
def optionsFrom (headers : Nat) : List (List Char) → List (SectionKey × String × String)
  | [] => []
  | line :: lines =>
    match splitWhitespace (String.ofList line) with
    | "config" :: _ => optionsFrom (headers + 1) lines
    | "option" :: option :: values | "list" :: option :: values =>
      (.nth headers, option, unquote (" ".intercalate values).toList) :: optionsFrom headers lines
    | _ => (shownOption line).toList ++ optionsFrom headers lines

def uciOptions (raw : String) : List (SectionKey × String × String) :=
  optionsFrom 0 (splitOn '\n' raw.toList)

/-- One section has an option with one of some values, for each of a list. -/
def OneSection (raw : String) (required : List (String × List String)) : Prop :=
  ∃ key, ∀ r ∈ required, ∃ value ∈ r.2, (key, r.1, value) ∈ uciOptions raw

-- ---------------------------------------------------------------------------
-- Lines
-- ---------------------------------------------------------------------------

/-- A line of the dump shows an option in one of the ways it is looked for. -/
def Shown (raw : String) (forms : List String) : Prop :=
  ∃ line ∈ splitOn '\n' (toAsciiLowercase raw).toList, ∃ form ∈ forms, form.toList <:+: line

def isHeader (line : List Char) : Bool :=
  (splitWhitespace (String.ofList line)).head? == some "config"

def fileOption (line : List Char) : Option (String × String) :=
  match splitWhitespace (String.ofList line) with
  | "option" :: option :: values | "list" :: option :: values =>
    some (option, unquote (" ".intercalate values).toList)
  | _ => none

def writtenForms (value : String) : List String :=
  [value, "'" ++ value ++ "'", "\"" ++ value ++ "\""]

def Writes (option value : String) (line : List Char) : Prop :=
  ∃ keyword ∈ ["option", "list"], ∃ written ∈ writtenForms value,
    splitWhitespace (String.ofList line) = [keyword, option, written]

def Shows (name : List Char) (option value : String) (line : List Char) : Prop :=
  ∃ package, ∃ written ∈ writtenForms value, '.' ∉ package ∧ '=' ∉ package ∧
    line = package ++ '.' :: (name ++ '.' :: (option.toList ++ '=' :: written.toList))

/-- Lines with one section name have every option, or lines of the file that
no `config` line parts. -/
def Gathered (lines : List (List Char)) (required : List (String × List String)) : Prop :=
  (∃ name, '.' ∉ name ∧ '=' ∉ name ∧ ∀ r ∈ required, ∃ value ∈ r.2, ∃ line ∈ lines,
    isHeader line = false ∧ fileOption line = none ∧ Shows name r.1 value line) ∨
  ∃ before block after, lines = before ++ block ++ after ∧
    (∀ line ∈ block, isHeader line = false) ∧
      ∀ r ∈ required, ∃ value ∈ r.2, ∃ line ∈ block, Writes r.1 value line

-- ---------------------------------------------------------------------------
-- Texts and lines
-- ---------------------------------------------------------------------------

theorem contains_iff_infix : contains n cs = true ↔ n <:+: cs := by
  induction cs with
  | nil => simp [contains]
  | cons c cs ih =>
    rw [contains, Bool.or_eq_true, List.isPrefixOf_iff_prefix, ih, List.infix_cons_iff]

/-- A word without the separator is found in the text where it is found in one
of its parts. -/
theorem infix_joinWith (hsep : sep ∉ n) (hne : n ≠ []) :
    n <:+: joinWith sep lines ↔ ∃ line ∈ lines, n <:+: line := by
  induction lines with
  | nil => simp [joinWith, hne]
  | cons line lines ih =>
    cases lines with
    | nil => simp [joinWith]
    | cons next lines =>
      rw [joinWith, List.exists_mem_cons_iff, ← ih]
      constructor
      · exact Spans.infix_of_not_mem hsep
      · rintro (h | h)
        · exact h.trans (List.prefix_append _ _).isInfix
        · exact h.trans ((List.suffix_cons _ _).trans (List.suffix_append _ _)).isInfix

def OneLine (form : String) : Prop := '\n' ∉ form.toList ∧ form.toList ≠ []

theorem oneLine_optionForms {option value : String} (ho : '\n' ∉ option.toList)
    (hv : '\n' ∉ value.toList) : ∀ form ∈ optionForms option value, OneLine form := by
  intro form hform
  simp only [optionForms, List.mem_cons, List.not_mem_nil, or_false] at hform
  rcases hform with rfl | rfl | rfl | rfl <;> simp [OneLine, ho, hv]

theorem oneLine_portForms (port : UInt16) : ∀ form ∈ portForms port, OneLine form := by
  have hport : '\n' ∉ Nat.toDigits 10 port.toNat := Hub.notMem_toDigits (by decide) _
  intro form hform
  rcases List.mem_append.mp hform with hform | hform
  · exact oneLine_optionForms (by decide) (by simpa using hport) form hform
  · rw [List.mem_singleton.mp hform]
    simp [OneLine, hport]

theorem oneLine_forms : ∀ forms ∈ [srcWg, srcWan, protoUdp, optionForms "dest" "lan",
    optionForms "dest" "wan"], ∀ form ∈ forms, OneLine form := by
  have hdec : ∀ forms ∈ [srcWg, srcWan, protoUdp, optionForms "dest" "lan",
      optionForms "dest" "wan"], ∀ form ∈ forms, '\n' ∉ form.toList ∧ form.toList ≠ [] := by decide
  exact hdec

theorem containsAny_iff {forms : List String} (hforms : ∀ form ∈ forms, OneLine form) :
    containsAny (toAsciiLowercase raw).toList forms = true ↔ Shown raw forms := by
  simp only [containsAny, List.any_eq_true, contains_iff_infix, Shown]
  have hsplit : ∀ form ∈ forms, form.toList <:+: (toAsciiLowercase raw).toList ↔
      ∃ line ∈ splitOn '\n' (toAsciiLowercase raw).toList, form.toList <:+: line := by
    intro form hform
    obtain ⟨hline, hne⟩ := hforms form hform
    rw [← infix_joinWith hline hne, joinWith_splitOn]
  constructor
  · rintro ⟨form, hform, hinfix⟩
    obtain ⟨line, hmem, hline⟩ := (hsplit form hform).mp hinfix
    exact ⟨line, hmem, form, hform, hline⟩
  · rintro ⟨line, hmem, form, hform, hline⟩
    exact ⟨form, hform, (hsplit form hform).mpr ⟨line, hmem, hline⟩⟩

theorem hasWgForwarding_iff : parseUciFirewallHasWgForwarding raw = true ↔
    Shown raw srcWg ∧ Shown raw (optionForms "dest" "lan") := by
  rw [parseUciFirewallHasWgForwarding, Bool.and_eq_true,
    containsAny_iff (oneLine_forms _ (by simp)), containsAny_iff (oneLine_forms _ (by simp))]

theorem hasWgWanForwarding_iff : parseUciFirewallHasWgWanForwarding raw = true ↔
    Shown raw srcWg ∧ Shown raw (optionForms "dest" "wan") := by
  rw [parseUciFirewallHasWgWanForwarding, Bool.and_eq_true,
    containsAny_iff (oneLine_forms _ (by simp)), containsAny_iff (oneLine_forms _ (by simp))]

theorem hasWgInboundRule_iff {port : UInt16} : parseUciFirewallHasWgInboundRule raw port = true ↔
    Shown raw (portForms port) ∧ Shown raw srcWan ∧ Shown raw protoUdp := by
  rw [parseUciFirewallHasWgInboundRule, Bool.and_eq_true, Bool.and_eq_true,
    containsAny_iff (oneLine_portForms port), containsAny_iff (oneLine_forms _ (by simp)),
    containsAny_iff (oneLine_forms _ (by simp)), and_assoc]

-- ---------------------------------------------------------------------------
-- The lines of a section
-- ---------------------------------------------------------------------------

/-- A word that neither the quotes nor the separators of a line are part of. -/
def PlainWord (s : String) : Prop :=
  s ≠ "" ∧ ∀ c ∈ s.toList, c ≠ ' ' ∧ c ≠ '.' ∧ c ≠ '=' ∧ c ≠ '\'' ∧ c ≠ '"'

theorem optionsFrom_cons (headers : Nat) (line : List Char) (lines : List (List Char)) :
    optionsFrom headers (line :: lines) =
      if isHeader line then optionsFrom (headers + 1) lines
      else match fileOption line with
        | some (option, value) => (.nth headers, option, value) :: optionsFrom headers lines
        | none => (shownOption line).toList ++ optionsFrom headers lines := by
  rw [optionsFrom, isHeader, fileOption]
  generalize splitWhitespace (String.ofList line) = words
  split
  · rfl
  · rfl
  · rfl
  · rename_i hconfig hoption hlist
    have hheader : (words.head? == some "config") = false := by
      cases words with
      | nil => rfl
      | cons word words =>
        rw [List.head?_cons, beq_eq_false_iff_ne]
        intro heq
        exact hconfig words (by rw [Option.some.inj heq])
    rw [hheader, if_neg Bool.false_ne_true]
    split
    · rename_i hother
      split at hother
      · exact absurd rfl (hoption _ _)
      · exact absurd rfl (hlist _ _)
      · cases hother
    · rfl

/-- A value in quotes ends with the quote it begins with. -/
theorem quoted_eq_iff {value : String} {quote : Char}
    (hne : ∀ c rest, value.toList = c :: rest → c ≠ quote) (rest : List Char) :
    String.ofList (if rest.getLast? = some quote then rest.dropLast else quote :: rest) = value ↔
      rest = value.toList ++ [quote] := by
  rw [← String.toList_inj, String.toList_ofList]
  split
  · rename_i hlast
    rw [← List.dropLast_append_getLast? quote hlast]
    simp
  · rename_i hlast
    constructor
    · exact fun heq => absurd rfl (hne quote rest heq.symm)
    · rintro rfl
      simp at hlast

theorem unquote_iff {value : String} (hv : PlainWord value) (x : List Char) :
    unquote x = value ↔ String.ofList x ∈ writtenForms value := by
  have hforms : String.ofList x ∈ writtenForms value ↔ x = value.toList ∨
      x = '\'' :: value.toList ++ ['\''] ∨ x = '"' :: value.toList ++ ['"'] := by
    simp only [writtenForms, List.mem_cons, List.not_mem_nil, or_false, ← String.toList_inj,
      String.toList_ofList, String.toList_append]
    rfl
  have hhead : ∀ c rest, value.toList = c :: rest → c ≠ '\'' ∧ c ≠ '"' := fun c rest h =>
    ⟨(hv.2 c (h ▸ List.mem_cons_self)).2.2.2.1, (hv.2 c (h ▸ List.mem_cons_self)).2.2.2.2⟩
  rw [hforms]
  unfold unquote
  split
  · rename_i rest
    rw [quoted_eq_iff fun c r h => (hhead c r h).1]
    simp only [List.cons_append, List.cons.injEq, true_and]
    constructor
    · exact fun h => .inr (.inl h)
    · rintro (h | h | ⟨h, -⟩)
      · exact absurd rfl (hhead _ _ h.symm).1
      · exact h
      · exact absurd h (by decide)
  · rename_i rest
    rw [quoted_eq_iff fun c r h => (hhead c r h).2]
    simp only [List.cons_append, List.cons.injEq, true_and]
    constructor
    · exact fun h => .inr (.inr h)
    · rintro (h | ⟨h, -⟩ | h)
      · exact absurd rfl (hhead _ _ h.symm).2
      · exact absurd h (by decide)
      · exact h
  · rename_i hsingle hdouble
    rw [← String.toList_inj, String.toList_ofList]
    constructor
    · exact .inl
    · rintro (h | h | h)
      · exact h
      · exact absurd h (hsingle _)
      · exact absurd h (hdouble _)

theorem space_notMem_written {value written : String} (hv : PlainWord value)
    (h : written ∈ writtenForms value) : ' ' ∉ written.toList ∧ written ≠ "" := by
  have hspace : ' ' ∉ value.toList := fun hmem => (hv.2 ' ' hmem).1 rfl
  simp only [writtenForms, List.mem_cons, List.not_mem_nil, or_false] at h
  rcases h with rfl | rfl | rfl
  · exact ⟨hspace, hv.1⟩
  · constructor
    · simp [hspace]
    · intro hempty
      have := congrArg String.toList hempty
      simp at this
  · constructor
    · simp [hspace]
    · intro hempty
      have := congrArg String.toList hempty
      simp at this

theorem eq_singleton_of_intercalate {words : List String} {word : String}
    (h : " ".intercalate words = word) (hspace : ' ' ∉ word.toList) (hne : word ≠ "") :
    words = [word] := by
  match words with
  | [] => exact absurd (by simpa using h.symm) hne
  | [w] =>
    rw [String.intercalate_singleton] at h
    rw [h]
  | v :: w :: words =>
    rw [String.intercalate_cons_cons] at h
    exact absurd (by simp [← h]) hspace

theorem writes_iff {keyword option option' value : String} {values : List String} {line : List Char}
    (hv : PlainWord value) (hkeyword : keyword ∈ ["option", "list"])
    (hwords : splitWhitespace (String.ofList line) = keyword :: option' :: values) :
    some (option', unquote (" ".intercalate values).toList) = some (option, value) ↔
      Writes option value line := by
  have hvalues : unquote (" ".intercalate values).toList = value ↔
      ∃ written ∈ writtenForms value, values = [written] := by
    rw [unquote_iff hv, String.ofList_toList]
    constructor
    · intro h
      obtain ⟨hspace, hne⟩ := space_notMem_written hv h
      exact ⟨_, h, eq_singleton_of_intercalate rfl hspace hne⟩
    · rintro ⟨written, hwritten, rfl⟩
      rwa [String.intercalate_singleton]
  rw [Option.some.injEq, Prod.mk.injEq, hvalues, Writes, hwords]
  constructor
  · rintro ⟨rfl, written, hwritten, rfl⟩
    exact ⟨keyword, hkeyword, written, hwritten, rfl⟩
  · rintro ⟨_, -, written, hwritten, heq⟩
    cases heq
    exact ⟨rfl, written, hwritten, rfl⟩

theorem fileOption_iff {option value : String} (hv : PlainWord value) (line : List Char) :
    fileOption line = some (option, value) ↔ Writes option value line := by
  unfold fileOption
  split
  · exact writes_iff hv List.mem_cons_self ‹_›
  · exact writes_iff hv (List.mem_cons_of_mem _ List.mem_cons_self) ‹_›
  · rename_i hoption hlist
    constructor
    · exact fun h => (nomatch h)
    · rintro ⟨keyword, hkeyword, written, -, heq⟩
      simp only [List.mem_cons, List.not_mem_nil, or_false] at hkeyword
      rcases hkeyword with rfl | rfl
      · exact absurd heq (hoption _ _)
      · exact absurd heq (hlist _ _)

theorem shownOption_eq_some {line : List Char} {key : SectionKey} {option value : String}
    (h : shownOption line = some (key, option, value)) :
    ∃ package name written, key = .named name ∧ unquote written = value ∧
      ('.' ∉ package ∧ '=' ∉ package) ∧ ('.' ∉ name ∧ '=' ∉ name) ∧
        line = package ++ '.' :: (name ++ '.' :: (option.toList ++ '=' :: written)) := by
  unfold shownOption at h
  dsimp only at h
  split at h
  · rename_i package name option' sign written hpath hvalue
    cases h
    have hpart : ∀ part ∈ splitOn '.' (line.takeWhile (· ≠ '=')), '.' ∉ part ∧ '=' ∉ part := by
      refine fun part hpart => ⟨notMem_splitOn hpart, fun hmem => ?_⟩
      simpa using List.mem_takeWhile_imp (mem_of_mem_splitOn hpart hmem)
    have hjoin := joinWith_splitOn '.' (line.takeWhile (· ≠ '='))
    rw [hpath] at hjoin hpart
    have hsign : sign = '=' := by
      have hfalse := List.head?_dropWhile_not (fun c : Char => decide (c ≠ '=')) line
      rw [hvalue] at hfalse
      simpa using hfalse
    refine ⟨package, name, written, rfl, rfl, hpart package (by simp), hpart name (by simp), ?_⟩
    calc line = line.takeWhile (· ≠ '=') ++ line.dropWhile (· ≠ '=') :=
          List.takeWhile_append_dropWhile.symm
      _ = joinWith '.' [package, name, option'] ++ '=' :: written := by rw [hjoin, hvalue, hsign]
      _ = _ := by simp [joinWith]
  · cases h

theorem shownOption_iff {option value : String} (ho : PlainWord option) (hv : PlainWord value)
    {name : List Char} (hdot : '.' ∉ name) (hequals : '=' ∉ name) (line : List Char) :
    shownOption line = some (.named name, option, value) ↔ Shows name option value line := by
  have hdot' : '.' ∉ option.toList := fun hmem => (ho.2 '.' hmem).2.1 rfl
  have hequals' : '=' ∉ option.toList := fun hmem => (ho.2 '=' hmem).2.2.1 rfl
  constructor
  · intro h
    obtain ⟨package, name', written, hkey, hunquoted, hpackage, -, hline⟩ := shownOption_eq_some h
    cases hkey
    exact ⟨package, String.ofList written, (unquote_iff hv written).mp hunquoted, hpackage.1,
      hpackage.2, by rw [hline, String.toList_ofList]⟩
  · rintro ⟨package, written, hwritten, hpdot, hpequals, rfl⟩
    have hpath : '=' ∉ package ++ '.' :: (name ++ '.' :: option.toList) := by
      simp [hpequals, hequals, hequals']
    have hpass : ∀ c ∈ package ++ '.' :: (name ++ '.' :: option.toList),
        decide (c ≠ '=') = true := by
      intro c hc
      refine decide_eq_true ?_
      rintro rfl
      exact hpath hc
    have hassoc : package ++ '.' :: (name ++ '.' :: (option.toList ++ '=' :: written.toList)) =
        (package ++ '.' :: (name ++ '.' :: option.toList)) ++ '=' :: written.toList := by simp
    have htake : List.takeWhile (· ≠ '=')
        (package ++ '.' :: (name ++ '.' :: option.toList) ++ '=' :: written.toList) =
          package ++ '.' :: (name ++ '.' :: option.toList) := by
      rw [List.takeWhile_append_of_pos hpass]
      simp
    have hdrop : List.dropWhile (· ≠ '=')
        (package ++ '.' :: (name ++ '.' :: option.toList) ++ '=' :: written.toList) =
          '=' :: written.toList := by
      rw [List.dropWhile_append_of_pos hpass]
      simp
    have hsplit : splitOn '.' (package ++ '.' :: (name ++ '.' :: option.toList)) =
        [package, name, option.toList] := by
      rw [splitOn_append, splitOn_append, splitOn_of_notMem hpdot, splitOn_of_notMem hdot,
        splitOn_of_notMem hdot']
      rfl
    have hvalue := (unquote_iff hv written.toList).mpr (by rwa [String.ofList_toList])
    simp only [shownOption, hassoc, htake, hdrop, hsplit, hvalue, String.ofList_toList]

variable {headers m : Nat} {option value : String}

theorem named_mem_optionsFrom {name : List Char} :
    (.named name, option, value) ∈ optionsFrom headers lines ↔ ∃ line ∈ lines,
      isHeader line = false ∧ fileOption line = none ∧
        shownOption line = some (.named name, option, value) := by
  induction lines generalizing headers with
  | nil => simp [optionsFrom]
  | cons line lines ih =>
    rw [optionsFrom_cons, List.exists_mem_cons_iff]
    split
    · rename_i hheader
      simp [ih, hheader]
    · rename_i hheader
      split
      · rename_i hfile
        simp [ih, hfile]
      · rename_i hfile
        simp [ih, hfile, hheader]

theorem nth_notMem_shownOption {line : List Char} :
    (.nth m, option, value) ∉ (shownOption line).toList := by
  intro h
  obtain ⟨_, name, _, hkey, -⟩ := shownOption_eq_some (Option.mem_toList.mp h)
  cases hkey

theorem le_of_nth_mem (h : (.nth m, option, value) ∈ optionsFrom headers lines) : headers ≤ m := by
  induction lines generalizing headers with
  | nil => simp [optionsFrom] at h
  | cons line lines ih =>
    rw [optionsFrom_cons] at h
    split at h
    · exact Nat.le_of_succ_le (ih h)
    · split at h
      · rcases List.mem_cons.mp h with heq | h
        · cases heq
          exact Nat.le_refl _
        · exact ih h
      · exact ih ((List.mem_append.mp h).resolve_left nth_notMem_shownOption)

/-- The options of a section of the file stand in lines that no `config` line
parts; those of the first one begin the text. -/
theorem block_of_nth (lines : List (List Char)) (hle : headers ≤ m) :
    ∃ before block after, lines = before ++ block ++ after ∧ (m = headers → before = []) ∧
      (∀ line ∈ block, isHeader line = false) ∧
        ∀ option value, (.nth m, option, value) ∈ optionsFrom headers lines →
          ∃ line ∈ block, fileOption line = some (option, value) := by
  induction lines generalizing headers with
  | nil => exact ⟨[], [], [], rfl, fun _ => rfl, by simp, by simp [optionsFrom]⟩
  | cons line lines ih =>
    by_cases hheader : isHeader line = true
    · rcases Nat.eq_or_lt_of_le hle with rfl | hlt
      · refine ⟨[], [], line :: lines, rfl, fun _ => rfl, by simp, fun option value hmem => ?_⟩
        rw [optionsFrom_cons, if_pos hheader] at hmem
        exact absurd (le_of_nth_mem hmem) (by omega)
      · obtain ⟨before, block, after, rfl, -, hblock, hoptions⟩ := ih hlt
        refine ⟨line :: before, block, after, rfl, by omega, hblock, fun option value hmem => ?_⟩
        rw [optionsFrom_cons, if_pos hheader] at hmem
        exact hoptions option value hmem
    · obtain ⟨before, block, after, rfl, hstart, hblock, hoptions⟩ := ih hle
      -- the option of this line is of the section, or is not looked for
      have hcons : ∀ option value,
          (.nth m, option, value) ∈ optionsFrom headers (line :: (before ++ block ++ after)) →
          (m = headers ∧ fileOption line = some (option, value)) ∨
            ∃ line ∈ block, fileOption line = some (option, value) := by
        intro option value hmem
        rw [optionsFrom_cons, if_neg hheader] at hmem
        split at hmem
        · rename_i hfile
          rcases List.mem_cons.mp hmem with heq | hmem
          · cases heq
            exact .inl ⟨rfl, hfile⟩
          · exact .inr (hoptions option value hmem)
        · have hlater := (List.mem_append.mp hmem).resolve_left nth_notMem_shownOption
          exact .inr (hoptions option value hlater)
      by_cases hfirst : m = headers
      · obtain rfl := hstart hfirst
        refine ⟨[], line :: block, after, rfl, fun _ => rfl, ?_, fun option value hmem => ?_⟩
        · exact List.forall_mem_cons.mpr ⟨by simpa using hheader, hblock⟩
        · rcases hcons option value hmem with ⟨-, hfile⟩ | ⟨l, hl, hfile⟩
          · exact ⟨line, List.mem_cons_self, hfile⟩
          · exact ⟨l, List.mem_cons_of_mem _ hl, hfile⟩
      · refine ⟨line :: before, block, after, rfl, fun h => absurd h hfirst, hblock,
          fun option value hmem => ?_⟩
        rcases hcons option value hmem with ⟨heq, -⟩ | hfound
        · exact absurd heq hfirst
        · exact hfound

theorem optionsFrom_append (before after : List (List Char)) :
    optionsFrom headers (before ++ after) =
      optionsFrom headers before ++ optionsFrom (headers + before.countP isHeader) after := by
  induction before generalizing headers with
  | nil => simp [optionsFrom]
  | cons line before ih =>
    rw [List.cons_append, optionsFrom_cons, optionsFrom_cons, List.countP_cons]
    split
    · rename_i hheader
      rw [ih, Nat.add_assoc, Nat.add_comm 1]
    · rename_i hheader
      simp only [ih, Nat.add_zero]
      split <;> simp

theorem nth_mem_of_block {block : List (List Char)} (hblock : ∀ line ∈ block, isHeader line = false)
    {line : List Char} (hline : line ∈ block) (hfile : fileOption line = some (option, value)) :
    (.nth headers, option, value) ∈ optionsFrom headers block := by
  induction block with
  | nil => cases hline
  | cons first block ih =>
    obtain ⟨hfirst, hblock⟩ := List.forall_mem_cons.mp hblock
    rw [optionsFrom_cons, hfirst, if_neg Bool.false_ne_true]
    rcases List.mem_cons.mp hline with rfl | hline
    · rw [hfile]
      exact List.mem_cons_self
    · have hmem := ih hblock hline
      split
      · exact List.mem_cons_of_mem _ hmem
      · exact List.mem_append_right _ hmem

theorem oneSection_iff_gathered {required : List (String × List String)}
    (hplain : ∀ r ∈ required, PlainWord r.1 ∧ ∀ value ∈ r.2, PlainWord value)
    (hne : required ≠ []) :
    OneSection raw required ↔ Gathered (splitOn '\n' raw.toList) required := by
  unfold OneSection Gathered uciOptions
  generalize splitOn '\n' raw.toList = lines
  constructor
  · rintro ⟨key, hall⟩
    cases key with
    | named name =>
      obtain ⟨r, hr⟩ := List.exists_mem_of_ne_nil required hne
      obtain ⟨value, -, hmem⟩ := hall r hr
      obtain ⟨line, -, -, -, hshown⟩ := named_mem_optionsFrom.mp hmem
      obtain ⟨_, name', _, hkey, -, -, ⟨hdot, hequals⟩, -⟩ := shownOption_eq_some hshown
      cases hkey
      refine .inl ⟨name, hdot, hequals, fun r hr => ?_⟩
      obtain ⟨value, hvalue, hmem⟩ := hall r hr
      obtain ⟨line, hline, hheader, hfile, hshown⟩ := named_mem_optionsFrom.mp hmem
      obtain ⟨ho, hv⟩ := hplain r hr
      exact ⟨value, hvalue, line, hline, hheader, hfile,
        (shownOption_iff ho (hv value hvalue) hdot hequals line).mp hshown⟩
    | nth m =>
      obtain ⟨before, block, after, hsplit, -, hblock, hoptions⟩ :=
        block_of_nth lines (Nat.zero_le m)
      refine .inr ⟨before, block, after, hsplit, hblock, fun r hr => ?_⟩
      obtain ⟨value, hvalue, hmem⟩ := hall r hr
      obtain ⟨line, hline, hfile⟩ := hoptions r.1 value hmem
      exact ⟨value, hvalue, line, hline,
        (fileOption_iff ((hplain r hr).2 value hvalue) line).mp hfile⟩
  · rintro (⟨name, hdot, hequals, hall⟩ | ⟨before, block, after, rfl, hblock, hall⟩)
    · refine ⟨.named name, fun r hr => ?_⟩
      obtain ⟨value, hvalue, line, hline, hheader, hfile, hshows⟩ := hall r hr
      obtain ⟨ho, hv⟩ := hplain r hr
      exact ⟨value, hvalue, named_mem_optionsFrom.mpr ⟨line, hline, hheader, hfile,
        (shownOption_iff ho (hv value hvalue) hdot hequals line).mpr hshows⟩⟩
    · refine ⟨.nth (before.countP isHeader), fun r hr => ?_⟩
      obtain ⟨value, hvalue, line, hline, hwrites⟩ := hall r hr
      have hfile := (fileOption_iff ((hplain r hr).2 value hvalue) line).mpr hwrites
      refine ⟨value, hvalue, ?_⟩
      rw [List.append_assoc, optionsFrom_append, optionsFrom_append, Nat.zero_add]
      exact List.mem_append_right _ (List.mem_append_left _ (nth_mem_of_block hblock hline hfile))

-- ---------------------------------------------------------------------------
-- One section or many
-- ---------------------------------------------------------------------------

/-- The sections the checks are for. -/
def wgForwarding (zone : String) : List (String × List String) :=
  [("src", ["wg", "labprobe_wg"]), ("dest", [zone])]

def wgInboundRule (port : UInt16) : List (String × List String) :=
  [("dest_port", [toString port.toNat]), ("src", ["wan"]), ("proto", ["udp"])]

/-- One of the options is shown by no line. -/
def Missing (raw : String) (forms : List (List String)) : Prop := ∃ f ∈ forms, ¬ Shown raw f

theorem plain_wgForwarding {zone : String} (hzone : PlainWord zone) :
    ∀ r ∈ wgForwarding zone, PlainWord r.1 ∧ ∀ value ∈ r.2, PlainWord value := by
  have hwords : PlainWord "src" ∧ PlainWord "wg" ∧ PlainWord "labprobe_wg" ∧ PlainWord "dest" := by
    simp [PlainWord]
  simp only [wgForwarding, List.forall_mem_cons, List.not_mem_nil, false_imp_iff, implies_true,
    and_true]
  exact ⟨⟨hwords.1, hwords.2.1, hwords.2.2.1⟩, hwords.2.2.2, hzone⟩

theorem plain_port (port : UInt16) : PlainWord (toString port.toNat) := by
  have htext : (toString port.toNat).toList = Nat.toDigits 10 port.toNat := Nat.toList_repr
  constructor
  · intro hempty
    rw [hempty] at htext
    exact Nat.toDigits_ne_nil htext.symm
  · intro c hc
    rw [htext] at hc
    have hdigit := isDigit_toDigits c hc
    refine ⟨?_, ?_, ?_, ?_, ?_⟩ <;> (rintro rfl; exact absurd hdigit (by decide))

theorem plain_wgInboundRule (port : UInt16) :
    ∀ r ∈ wgInboundRule port, PlainWord r.1 ∧ ∀ value ∈ r.2, PlainWord value := by
  have hwords : PlainWord "dest_port" ∧ PlainWord "src" ∧ PlainWord "wan" ∧ PlainWord "proto" ∧
      PlainWord "udp" := by simp [PlainWord]
  simp only [wgInboundRule, List.forall_mem_cons, List.not_mem_nil, false_imp_iff, implies_true,
    and_true]
  exact ⟨⟨hwords.1, plain_port port⟩, ⟨hwords.2.1, hwords.2.2.1⟩, hwords.2.2.2.1, hwords.2.2.2.2⟩

def scatteredDump : String :=
  "firewall.cfg01=forwarding\nfirewall.cfg01.src='wg'\nfirewall.cfg01.dest='dmz'\n" ++
  "firewall.cfg02=forwarding\nfirewall.cfg02.src='lan'\nfirewall.cfg02.dest='wan'\n"

end LabProbe.Relay
