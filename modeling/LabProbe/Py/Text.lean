import Mathlib.Algebra.Order.Field.Rat
import Mathlib.Data.List.DropRight

/-!
# Python text

The string operations the Hub's code uses, over the code points of the
string. The tables of the Unicode database that depend on the version of
the interpreter are a parameter; white space and the decimal digits, which
`strip` and `int` read, are written out.
-/

namespace Py

def asciiLower (s : String) : String := String.ofList (s.toList.map Char.toLower)

def asciiUpper (s : String) : String := String.ofList (s.toList.map Char.toUpper)

theorem toLower_cases (c : Char) :
    c.toLower = c ∨ 65 ≤ c.toNat ∧ c.toNat ≤ 90 ∧ c.toLower.toNat = c.toNat + 32 := by
  delta Char.toLower
  split
  · rename_i h
    have hlow : 65 ≤ c.val.toNat := UInt32.le_iff_toNat_le.mp h.1
    have hhigh : c.val.toNat ≤ 90 := UInt32.le_iff_toNat_le.mp h.2
    have hcase : ('a'.val - 'A'.val).toNat = 32 := rfl
    refine .inr ⟨hlow, hhigh, ?_⟩
    rw [← Char.toNat_val, UInt32.toNat_add, hcase]
    simp only [Char.toNat_val] at *
    omega
  · exact .inl rfl

theorem toUpper_cases (c : Char) :
    c.toUpper = c ∨ 97 ≤ c.toNat ∧ c.toNat ≤ 122 ∧ c.toUpper.toNat = c.toNat - 32 := by
  delta Char.toUpper
  split
  · rename_i h
    have hlow : 97 ≤ c.val.toNat := UInt32.le_iff_toNat_le.mp h.1
    have hhigh : c.val.toNat ≤ 122 := UInt32.le_iff_toNat_le.mp h.2
    have hcase : ('A'.val - 'a'.val).toNat = 2 ^ 32 - 32 := rfl
    refine .inr ⟨hlow, hhigh, ?_⟩
    rw [← Char.toNat_val, UInt32.toNat_add, hcase]
    simp only [Char.toNat_val] at *
    omega
  · exact .inl rfl

theorem toUpper_toUpper (c : Char) : c.toUpper.toUpper = c.toUpper := by
  rcases toUpper_cases c with h | ⟨hlow, hhigh, h⟩
  · rw [h, h]
  · exact (toUpper_cases c.toUpper).resolve_right fun h' => by omega

theorem asciiUpper_asciiUpper (s : String) : asciiUpper (asciiUpper s) = asciiUpper s := by
  rw [asciiUpper, asciiUpper, String.toList_ofList, List.map_map]
  congr 2
  exact funext toUpper_toUpper

/-- The tables behind `str.lower`, `str.upper`, `str.isprintable` and
`str.isalnum`; on ASCII texts every version changes the case the same way. -/
class Unicode where
  lower : String → String
  upper : String → String
  isPrintable : Char → Bool
  isAlnum : Char → Bool
  lower_ascii : ∀ s : String, s.toList.all (fun c => c.toNat < 128) → lower s = asciiLower s
  upper_ascii : ∀ s : String, s.toList.all (fun c => c.toNat < 128) → upper s = asciiUpper s

/-- The tables on ASCII, for concrete texts. -/
@[reducible] def Unicode.ascii : Unicode where
  lower := asciiLower
  upper := asciiUpper
  isPrintable c := 32 ≤ c.toNat && c.toNat < 127
  isAlnum := Char.isAlphanum
  lower_ascii _ _ := rfl
  upper_ascii _ _ := rfl

def isSpace (c : Char) : Bool :=
  let n := c.toNat
  (9 ≤ n && n ≤ 13) || (28 ≤ n && n ≤ 32) || n == 0x85 || n == 0xa0 || n == 0x1680 ||
    (0x2000 ≤ n && n ≤ 0x200a) || n == 0x2028 || n == 0x2029 || n == 0x202f || n == 0x205f ||
    n == 0x3000

-- ---------------------------------------------------------------------------
-- Trimming
-- ---------------------------------------------------------------------------

def strip (s : String) : String :=
  String.ofList (List.rdropWhile isSpace (s.toList.dropWhile isSpace))

def rstripChar (c : Char) (s : String) : String :=
  String.ofList (List.rdropWhile (· == c) s.toList)

theorem strip_empty : strip "" = "" := by decide

theorem trimmed_trimmed (p : Char → Bool) (l : List Char) :
    List.rdropWhile p ((List.rdropWhile p (l.dropWhile p)).dropWhile p) =
      List.rdropWhile p (l.dropWhile p) := by
  have hleft := List.dropWhile_idempotent p l
  generalize l.dropWhile p = l at hleft
  have hhead : (l.rdropWhile p).dropWhile p = l.rdropWhile p := by
    obtain ⟨rest, hrest⟩ := List.rdropWhile_prefix p l
    cases hm : l.rdropWhile p with
    | nil => rfl
    | cons c cs =>
      rw [hm, List.cons_append] at hrest
      rw [← hrest, List.dropWhile_eq_self_iff] at hleft
      rw [List.dropWhile_eq_self_iff]
      exact fun _ => hleft (by simp)
  rw [hhead, List.rdropWhile_idempotent]

theorem strip_strip (s : String) : strip (strip s) = strip s := by
  unfold strip
  rw [String.toList_ofList, trimmed_trimmed]

theorem strip_of_noSpace {s : String} (h : ∀ c ∈ s.toList, isSpace c = false) : strip s = s := by
  have hleft : s.toList.dropWhile isSpace = s.toList := by
    rw [List.dropWhile_eq_self_iff]
    exact fun hlen => by simp [h _ (List.getElem_mem hlen)]
  have hright : s.toList.rdropWhile isSpace = s.toList := by
    rw [List.rdropWhile_eq_self_iff]
    exact fun hne => by simp [h _ (List.getLast_mem hne)]
  rw [strip, hleft, hright, String.ofList_toList]

theorem mem_strip {c : Char} {s : String} (h : c ∈ (strip s).toList) : c ∈ s.toList := by
  rw [strip, String.toList_ofList] at h
  exact (List.dropWhile_suffix isSpace).subset ((List.rdropWhile_prefix isSpace _).subset h)

theorem strip_eq_self_iff {s : String} : strip s = s ↔
    (∀ c ∈ s.toList.head?, isSpace c = false) ∧ ∀ c ∈ s.toList.getLast?, isSpace c = false := by
  have hleft : s.toList.dropWhile isSpace = s.toList ↔
      ∀ c ∈ s.toList.head?, isSpace c = false := by
    cases s.toList with
    | nil => simp
    | cons c cs => simp [List.dropWhile_eq_self_iff]
  have hright : s.toList.rdropWhile isSpace = s.toList ↔
      ∀ c ∈ s.toList.getLast?, isSpace c = false := by
    rw [List.rdropWhile_eq_self_iff]
    constructor
    · intro h c hc
      obtain ⟨hne, rfl⟩ := List.mem_getLast?_eq_getLast hc
      simpa using h hne
    · intro h hne
      simpa using h _ (List.getLast?_eq_getLast_of_ne_nil hne)
  constructor
  · intro h
    have hchars : (s.toList.dropWhile isSpace).rdropWhile isSpace = s.toList := by
      rw [← String.toList_ofList (l := (s.toList.dropWhile isSpace).rdropWhile isSpace)]
      exact congrArg String.toList h
    have hlength := (List.rdropWhile_prefix isSpace (s.toList.dropWhile isSpace)).length_le
    rw [hchars] at hlength
    have hwhole : s.toList.dropWhile isSpace = s.toList :=
      (List.dropWhile_suffix isSpace).eq_of_length_le hlength
    rw [hwhole] at hchars
    exact ⟨hleft.mp hwhole, hright.mp hchars⟩
  · rintro ⟨hfirst, hlast⟩
    rw [strip, hleft.mpr hfirst, hright.mpr hlast, String.ofList_toList]

theorem isAlpha_eq (c : Char) : c.isAlpha = (c.isUpper || c.isLower) := rfl

theorem isUpper_eq (c : Char) : c.isUpper = decide (c.val ≥ 'A'.val ∧ c.val ≤ 'Z'.val) := rfl

theorem isLower_eq (c : Char) :
    c.isLower = (decide (c.val ≥ 'a'.val) && decide (c.val ≤ 'z'.val)) := rfl

theorem toNat_of_isAlphanum {c : Char} (h : c.isAlphanum = true) : 48 ≤ c.toNat ∧ c.toNat ≤ 122 := by
  simp only [Char.isAlphanum, isAlpha_eq, isUpper_eq, isLower_eq, Char.isDigit,
    Bool.or_eq_true, Bool.and_eq_true, decide_eq_true_eq, UInt32.le_iff_toNat_le] at h
  change 48 ≤ c.val.toNat ∧ c.val.toNat ≤ 122
  grind

theorem isSpace_of_isAlphanum {c : Char} (h : c.isAlphanum = true) : isSpace c = false := by
  have hrange := toNat_of_isAlphanum h
  simp only [isSpace, Bool.and_eq_false_iff, Bool.or_eq_false_iff, decide_eq_false_iff_not,
    beq_eq_false_iff_ne]
  omega

/-- `s[:n]`. -/
def takeChars (n : Nat) (s : String) : String := String.ofList (s.toList.take n)

-- ---------------------------------------------------------------------------
-- Searching and splitting
-- ---------------------------------------------------------------------------

/-- `s.split(sep)` for a one-character separator. -/
def splitOn (sep : Char) : List Char → List (List Char)
  | [] => [[]]
  | c :: cs =>
    if c = sep then [] :: splitOn sep cs
    else match splitOn sep cs with
      | [] => [[c]]
      | word :: words => (c :: word) :: words

def joinWith (sep : Char) (parts : List (List Char)) : List Char := [sep].intercalate parts

/-- `s.rsplit(sep, 1)` when the separator occurs: what is before and after
its last occurrence. -/
def rsplitOnce (sep : Char) : List Char → Option (List Char × List Char)
  | [] => none
  | c :: cs =>
    match rsplitOnce sep cs with
    | some (before, after) => some (c :: before, after)
    | none => if c = sep then some ([], cs) else none

theorem joinWith_cons (sep : Char) (part : List Char) (parts : List (List Char)) :
    joinWith sep (part :: parts) = part ++ parts.flatMap (sep :: ·) := by
  unfold joinWith
  induction parts generalizing part with
  | nil => simp [List.intercalate]
  | cons next parts ih =>
    have hstep : [sep].intercalate (part :: next :: parts) =
        part ++ [sep] ++ [sep].intercalate (next :: parts) := by
      simp [List.intercalate]
    rw [hstep, ih next]
    simp

theorem joinWith_append {sep : Char} {parts others : List (List Char)} (hp : parts ≠ [])
    (ho : others ≠ []) :
    joinWith sep (parts ++ others) = joinWith sep parts ++ sep :: joinWith sep others := by
  obtain ⟨part, parts, rfl⟩ := List.exists_cons_of_ne_nil hp
  obtain ⟨other, others, rfl⟩ := List.exists_cons_of_ne_nil ho
  simp [joinWith_cons]

theorem mem_joinWith {sep c : Char} {parts : List (List Char)} (h : c ∈ joinWith sep parts) :
    c = sep ∨ ∃ part ∈ parts, c ∈ part := by
  cases parts with
  | nil => simp [joinWith] at h
  | cons part parts =>
    rw [joinWith_cons, List.mem_append, List.mem_flatMap] at h
    rcases h with h | ⟨other, hother, h⟩
    · exact .inr ⟨part, List.mem_cons_self, h⟩
    · rcases List.mem_cons.mp h with rfl | h
      · exact .inl rfl
      · exact .inr ⟨other, List.mem_cons_of_mem _ hother, h⟩

theorem splitOn_ne_nil (sep : Char) (cs : List Char) : splitOn sep cs ≠ [] := by
  induction cs with
  | nil => simp [splitOn]
  | cons c cs ih =>
    unfold splitOn
    split
    · simp
    · split <;> simp

theorem splitOn_append (sep : Char) (cs ds : List Char) :
    splitOn sep (cs ++ sep :: ds) = splitOn sep cs ++ splitOn sep ds := by
  induction cs with
  | nil => simp [splitOn]
  | cons c cs ih =>
    simp only [List.cons_append, splitOn, ih]
    split
    · rfl
    · cases h : splitOn sep cs with
      | nil => exact absurd h (splitOn_ne_nil sep cs)
      | cons word words => rfl

theorem splitOn_of_notMem {sep : Char} {cs : List Char} (h : sep ∉ cs) : splitOn sep cs = [cs] := by
  induction cs with
  | nil => rfl
  | cons c cs ih =>
    obtain ⟨hc, hcs⟩ := not_or.mp (mt List.mem_cons.mpr h)
    rw [splitOn, if_neg (Ne.symm hc), ih hcs]

theorem notMem_splitOn {sep : Char} {cs part : List Char} (h : part ∈ splitOn sep cs) : sep ∉ part := by
  induction cs generalizing part with
  | nil =>
    rw [splitOn, List.mem_singleton] at h
    simp [h]
  | cons c cs ih =>
    unfold splitOn at h
    split at h
    · rcases List.mem_cons.mp h with rfl | h
      · exact List.not_mem_nil
      · exact ih h
    · rename_i hc
      split at h
      · rename_i hnil
        exact absurd hnil (splitOn_ne_nil sep cs)
      · rename_i word words hsplit
        rw [hsplit] at ih
        rcases List.mem_cons.mp h with rfl | h
        · exact fun hm => (List.mem_cons.mp hm).elim (fun heq => hc heq.symm)
            (ih List.mem_cons_self)
        · exact ih (List.mem_cons_of_mem _ h)

theorem splitOn_joinWith {sep : Char} {parts : List (List Char)} (hne : parts ≠ [])
    (h : ∀ part ∈ parts, sep ∉ part) : splitOn sep (joinWith sep parts) = parts := by
  induction parts with
  | nil => exact absurd rfl hne
  | cons part parts ih =>
    obtain ⟨hpart, hparts⟩ := List.forall_mem_cons.mp h
    have hone : joinWith sep [part] = part := by simp [joinWith]
    by_cases hnil : parts = []
    · subst hnil
      rw [hone, splitOn_of_notMem hpart]
    · rw [← List.singleton_append, joinWith_append (by simp) hnil, hone, splitOn_append,
        splitOn_of_notMem hpart, ih hnil hparts]

theorem joinWith_splitOn (sep : Char) (cs : List Char) : joinWith sep (splitOn sep cs) = cs := by
  induction cs with
  | nil => rfl
  | cons c cs ih =>
    obtain ⟨word, words, hwords⟩ := List.exists_cons_of_ne_nil (splitOn_ne_nil sep cs)
    rw [hwords] at ih
    unfold splitOn
    split
    · rename_i hc
      rw [hwords]
      simp [joinWith_cons, ← ih, hc]
    · rw [hwords]
      simp [joinWith_cons, ← ih]

theorem mem_splitOn (sep : Char) {c : Char} {cs : List Char} (h : c ∈ cs) :
    c = sep ∨ ∃ word ∈ splitOn sep cs, c ∈ word := by
  rw [← joinWith_splitOn sep cs] at h
  exact mem_joinWith h

theorem mem_of_mem_splitOn {sep c : Char} {cs word : List Char} (hword : word ∈ splitOn sep cs)
    (hc : c ∈ word) : c ∈ cs := by
  rw [← joinWith_splitOn sep cs]
  obtain ⟨first, rest, hsplit⟩ := List.exists_cons_of_ne_nil (splitOn_ne_nil sep cs)
  rw [hsplit] at hword ⊢
  rw [joinWith_cons, List.mem_append, List.mem_flatMap]
  rcases List.mem_cons.mp hword with rfl | hword
  · exact .inl hc
  · exact .inr ⟨word, hword, List.mem_cons_of_mem sep hc⟩

theorem rsplitOnce_eq_none {sep : Char} {cs : List Char} : rsplitOnce sep cs = none ↔ sep ∉ cs := by
  induction cs with
  | nil => simp [rsplitOnce]
  | cons c cs ih =>
    rw [rsplitOnce, List.mem_cons, not_or, ← ih]
    split
    · rename_i hrest
      simp [hrest]
    · rename_i hrest
      by_cases hc : c = sep
      · simp [hc]
      · simp [hc, hrest, Ne.symm hc]

theorem rsplitOnce_eq_some {sep : Char} {cs before after : List Char}
    (h : rsplitOnce sep cs = some (before, after)) : cs = before ++ sep :: after ∧ sep ∉ after := by
  induction cs generalizing before with
  | nil => cases h
  | cons c cs ih =>
    rw [rsplitOnce] at h
    split at h
    · rename_i hrest
      cases h
      obtain ⟨rfl, hafter⟩ := ih hrest
      exact ⟨rfl, hafter⟩
    · rename_i hrest
      split at h
      · rename_i hc
        cases h
        exact ⟨by rw [hc, List.nil_append], rsplitOnce_eq_none.mp hrest⟩
      · cases h

theorem rsplitOnce_append {sep : Char} (before : List Char) {after : List Char} (h : sep ∉ after) :
    rsplitOnce sep (before ++ sep :: after) = some (before, after) := by
  induction before with
  | nil => simp [rsplitOnce, rsplitOnce_eq_none.mpr h]
  | cons c before ih => rw [List.cons_append, rsplitOnce, ih]

/-- `text in s`. -/
def contains (needle : List Char) : List Char → Bool
  | [] => needle.isEmpty
  | c :: cs => needle.isPrefixOf (c :: cs) || contains needle cs

/-- `s.replace(old, new)` from left to right; `skip` counts the characters
of an occurrence still to be left out. -/
def replaceAll (old new : List Char) : Nat → List Char → List Char
  | _, [] => []
  | skip + 1, _ :: cs => replaceAll old new skip cs
  | 0, c :: cs =>
    if old.isPrefixOf (c :: cs) then new ++ replaceAll old new (old.length - 1) cs
    else c :: replaceAll old new 0 cs

theorem replaceAll_of_notMem {c : Char} {new cs : List Char} (h : c ∉ cs) :
    replaceAll [c] new 0 cs = cs := by
  induction cs with
  | nil => rfl
  | cons d cs ih =>
    obtain ⟨hd, hcs⟩ := List.ne_and_not_mem_of_not_mem_cons h
    have hprefix : [c].isPrefixOf (d :: cs) = false := by simp [List.isPrefixOf, hd]
    rw [replaceAll, hprefix, if_neg Bool.false_ne_true, ih hcs]

theorem mem_replaceAll {c d : Char} {new cs : List Char} (h : d ∈ replaceAll [c] new 0 cs) :
    d ∈ new ∨ d ∈ cs ∧ d ≠ c := by
  induction cs with
  | nil => cases h
  | cons e cs ih =>
    rw [replaceAll] at h
    split at h
    · rcases List.mem_append.mp h with h | h
      · exact .inl h
      · exact (ih h).imp_right fun ⟨hmem, hne⟩ => ⟨List.mem_cons_of_mem e hmem, hne⟩
    · rename_i hother
      rcases List.mem_cons.mp h with rfl | h
      · refine .inr ⟨List.mem_cons_self, ?_⟩
        rintro rfl
        simp [List.isPrefixOf] at hother
      · exact (ih h).imp_right fun ⟨hmem, hne⟩ => ⟨List.mem_cons_of_mem e hmem, hne⟩

-- ---------------------------------------------------------------------------
-- Numbers
-- ---------------------------------------------------------------------------

/-- The code points of the decimal zeros; the other nine digits follow each. -/
def decimalZeros : List Nat :=
  [0x30, 0x660, 0x6f0, 0x7c0, 0x966, 0x9e6, 0xa66, 0xae6, 0xb66, 0xbe6, 0xc66, 0xce6, 0xd66, 0xde6,
   0xe50, 0xed0, 0xf20, 0x1040, 0x1090, 0x17e0, 0x1810, 0x1946, 0x19d0, 0x1a80, 0x1a90, 0x1b50,
   0x1bb0, 0x1c40, 0x1c50, 0xa620, 0xa8d0, 0xa900, 0xa9d0, 0xa9f0, 0xaa50, 0xabf0, 0xff10, 0x104a0,
   0x10d30, 0x11066, 0x110f0, 0x11136, 0x111d0, 0x112f0, 0x11450, 0x114d0, 0x11650, 0x116c0,
   0x11730, 0x118e0, 0x11950, 0x11c50, 0x11d50, 0x11da0, 0x11f50, 0x16a60, 0x16ac0, 0x16b50, 0x1d7ce,
   0x1d7d8, 0x1d7e2, 0x1d7ec, 0x1d7f6, 0x1e140, 0x1e2f0, 0x1e4f0, 0x1e950, 0x1fbf0]

def digit? (c : Char) : Option Nat :=
  (decimalZeros.find? fun z => z ≤ c.toNat && c.toNat ≤ z + 9).map (c.toNat - ·)

/-- Digits with single underscores between them; `afterDigit` says that one
may stand here, and that the text may end here. -/
def parseDigits (acc : Nat) (afterDigit : Bool) : List Char → Option Nat
  | [] => if afterDigit then some acc else none
  | c :: cs =>
    if c = '_' then
      if afterDigit then parseDigits acc false cs else none
    else match digit? c with
      | some d => parseDigits (acc * 10 + d) true cs
      | none => none

def isIntSpace (c : Char) : Bool :=
  isSpace c && !(28 ≤ c.toNat && c.toNat ≤ 31)

def maxDigits : Nat := 4300

def digitCount (cs : List Char) : Nat := cs.countP fun c => (digit? c).isSome

def parseInt (s : String) : Option Int :=
  if maxDigits < digitCount s.toList then none else
  match List.rdropWhile isIntSpace (s.toList.dropWhile isIntSpace) with
  | '-' :: cs => (parseDigits 0 false cs).map fun n => -(n : Int)
  | '+' :: cs => (parseDigits 0 false cs).map Int.ofNat
  | cs => (parseDigits 0 false cs).map Int.ofNat

theorem isSpace_of_isDigit {c : Char} (h : c.isDigit = true) : isSpace c = false := by
  have hrange : 48 ≤ c.toNat ∧ c.toNat ≤ 57 := Char.isDigit_iff_toNat.mp h
  simp only [isSpace, Bool.and_eq_false_iff, Bool.or_eq_false_iff, decide_eq_false_iff_not,
    beq_eq_false_iff_ne]
  omega

theorem isDigit_toDigits {n : Nat} : ∀ c ∈ Nat.toDigits 10 n, c.isDigit = true := fun _ hc =>
  Nat.isDigit_of_mem_toDigits (by decide) (by decide) hc

theorem digit?_of_isDigit {c : Char} (h : c.isDigit = true) : digit? c = some (c.toNat - 48) := by
  have hrange : 48 ≤ c.toNat ∧ c.toNat ≤ 57 := Char.isDigit_iff_toNat.mp h
  have hzeros : decimalZeros = 48 :: decimalZeros.tail := rfl
  rw [digit?, hzeros, List.find?_cons_of_pos (by simpa using hrange), Option.map_some]

theorem parseDigits_digits {cs : List Char} (h : ∀ c ∈ cs, c.isDigit = true) (acc : Nat) :
    parseDigits acc true cs = some (Nat.ofDigitChars 10 cs acc) := by
  induction cs generalizing acc with
  | nil => rfl
  | cons c cs ih =>
    obtain ⟨hc, hcs⟩ := List.forall_mem_cons.mp h
    have hne : c ≠ '_' := by
      rintro rfl
      exact absurd hc (by decide)
    simp only [parseDigits, hne, if_false, digit?_of_isDigit hc]
    rw [ih hcs, Nat.ofDigitChars_cons, Nat.mul_comm 10]
    rfl

theorem digitCount_digits {cs : List Char} (h : ∀ c ∈ cs, c.isDigit = true) :
    digitCount cs = cs.length := by
  rw [digitCount, List.countP_eq_length]
  intro c hc
  rw [digit?_of_isDigit (h c hc), Option.isSome_some]

theorem toList_toString (n : Int) : (toString n).toList =
    if 0 ≤ n then Nat.toDigits 10 n.natAbs else '-' :: Nat.toDigits 10 n.natAbs := by
  cases n with
  | ofNat m => exact Nat.toList_repr
  | negSucc m =>
    have hrepr : toString (Int.negSucc m) = "-" ++ (m + 1).repr := rfl
    rw [hrepr, String.toList_append, Nat.toList_repr, if_neg (by omega)]
    rfl

theorem digitCount_toString (n : Int) :
    digitCount (toString n).toList ≤ maxDigits ↔ n.natAbs < 10 ^ maxDigits := by
  have hcount : digitCount (toString n).toList = (Nat.toDigits 10 n.natAbs).length := by
    have hdigits := digitCount_digits (@isDigit_toDigits n.natAbs)
    have hsign : (digit? '-').isSome = false := by decide
    rw [toList_toString]
    split
    · exact hdigits
    · rw [digitCount, List.countP_cons_of_neg (by simp [hsign])]
      exact hdigits
  rw [hcount, Nat.length_toDigits_le_iff (by decide) (by decide)]

theorem natAbs_lt_limit {n : Int} (hn : n.natAbs < 10 ^ 6) : n.natAbs < 10 ^ maxDigits :=
  Nat.lt_of_lt_of_le hn (Nat.pow_le_pow_right (by decide) (by decide))

theorem parseInt_toString_none {n : Int} (hn : 10 ^ maxDigits ≤ n.natAbs) :
    parseInt (toString n) = none := by
  have hcount : ¬ digitCount (toString n).toList ≤ maxDigits := by
    rw [digitCount_toString]
    exact Nat.not_lt.mpr hn
  rw [parseInt, if_pos (Nat.lt_of_not_le hcount)]

theorem parseInt_trimmed {cs : List Char} (hcs : ∀ c ∈ cs, isIntSpace c = false) :
    List.rdropWhile isIntSpace (cs.dropWhile isIntSpace) = cs := by
  have hleft : cs.dropWhile isIntSpace = cs := by
    rw [List.dropWhile_eq_self_iff]
    exact fun hlen => by simp [hcs _ (List.getElem_mem hlen)]
  rw [hleft, List.rdropWhile_eq_self_iff]
  exact fun hne => by simp [hcs _ (List.getLast_mem hne)]

theorem isIntSpace_of_isDigit {c : Char} (h : c.isDigit = true) : isIntSpace c = false := by
  rw [isIntSpace, isSpace_of_isDigit h, Bool.false_and]

theorem parseDigits_start {cs : List Char} (hcs : ∀ c ∈ cs, c.isDigit = true) (hne : cs ≠ []) :
    parseDigits 0 false cs = some (Nat.ofDigitChars 10 cs 0) := by
  cases cs with
  | nil => exact absurd rfl hne
  | cons c cs =>
    have hfirst : parseDigits 0 false (c :: cs) = parseDigits 0 true (c :: cs) := by
      have hc := hcs c List.mem_cons_self
      have hother : c ≠ '_' := by
        rintro rfl
        exact absurd hc (by decide)
      simp only [parseDigits, hother, if_false]
    rw [hfirst, parseDigits_digits hcs]

theorem parseInt_digits {cs : List Char} (hcs : ∀ c ∈ cs, c.isDigit = true) (hne : cs ≠ [])
    (hlength : cs.length ≤ maxDigits) :
    parseInt (String.ofList cs) = some (Nat.ofDigitChars 10 cs 0 : Int) := by
  rw [parseInt, String.toList_ofList, digitCount_digits hcs, if_neg (Nat.not_lt.mpr hlength),
    parseInt_trimmed fun c hc => isIntSpace_of_isDigit (hcs c hc)]
  split
  · exact absurd (hcs '-' List.mem_cons_self) (by decide)
  · exact absurd (hcs '+' List.mem_cons_self) (by decide)
  · rw [parseDigits_start hcs hne, Option.map_some, Int.ofNat_eq_natCast]

theorem parseInt_toString {n : Int} (hn : n.natAbs < 10 ^ maxDigits) :
    parseInt (toString n) = some n := by
  have hall := @isDigit_toDigits n.natAbs
  have hcount := (digitCount_toString n).mpr hn
  by_cases hsign : 0 ≤ n
  · have htext : toString n = String.ofList (Nat.toDigits 10 n.natAbs) := by
      rw [← String.ofList_toList (s := toString n), toList_toString, if_pos hsign]
    have hlength : (Nat.toDigits 10 n.natAbs).length ≤ maxDigits := by
      rwa [toList_toString, if_pos hsign, digitCount_digits hall] at hcount
    rw [htext, parseInt_digits hall Nat.toDigits_ne_nil hlength, Nat.ofDigitChars_ten_toDigits,
      Int.natAbs_of_nonneg hsign]
  · have hspace : ∀ c ∈ '-' :: Nat.toDigits 10 n.natAbs, isIntSpace c = false := by
      intro c hc
      rcases List.mem_cons.mp hc with rfl | hc
      · decide
      · exact isIntSpace_of_isDigit (hall c hc)
    have hneg : -(n.natAbs : Int) = n := by omega
    rw [parseInt, if_neg (Nat.not_lt.mpr hcount), toList_toString, if_neg hsign,
      parseInt_trimmed hspace]
    simp only [parseDigits_start hall Nat.toDigits_ne_nil, Nat.ofDigitChars_ten_toDigits]
    exact congrArg some hneg

example : parseInt " 1_0\n" = some 10 ∧ parseInt "1__0" = none ∧ parseInt "-07" = some (-7) := by
  decide

example : strip " a b\t" = "a b" ∧ rstripChar '.' "a.b.." = "a.b" := by decide

example : replaceAll "aa".toList "b".toList 0 "caaad".toList = "cbad".toList := by decide

end Py
