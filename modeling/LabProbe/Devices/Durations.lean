import LabProbe.Devices.Daily

/-!
# Duration texts

The Hub writes an online duration as a text, rewrites the text for display,
and reads the seconds of the displayed text back for its daily statistics.
-/

namespace LabProbe.Devices

open Py Py.Json Hub

-- ---------------------------------------------------------------------------
-- Reading a text
-- ---------------------------------------------------------------------------

def readNumber (cs : List Char) : Option (Nat × List Char) :=
  (parseDigits 0 false (cs.takeWhile DateTime.isDecimal)).map (·, cs.dropWhile DateTime.isDecimal)

def readWord (word : String) (cs : List Char) : Option (List Char) :=
  if word.toList.isPrefixOf cs then some (cs.drop word.toList.length) else none

def searchNumber (word : String) : List Char → Option Nat
  | [] => none
  | c :: cs =>
    match readNumber (c :: cs) with
    | some (n, rest) => if (readWord word rest).isSome then some n else searchNumber word cs
    | none => searchNumber word cs

def minutesSeconds (cs : List Char) : Option (Nat × Option Nat) := do
  let (minutes, cs) ← readNumber cs
  let cs ← readWord "分" cs
  if cs.isEmpty then some (minutes, none) else
  let (seconds, cs) ← readNumber cs
  let cs ← readWord "秒" cs
  if cs.isEmpty then some (minutes, some seconds) else none

def longHour (cs : List Char) : List Char := replaceAll ['时'] ['小', '时'] 0 cs

def isNoDuration (s : String) : Bool := s == "" || ["-", "null", "None"].contains s

def prettyDurationText (text : String) : String :=
  let s := strip text
  if isNoDuration s then "" else
  match minutesSeconds s.toList with
  | some (minutes, some seconds) =>
    let h := minutes / 60
    let m := minutes % 60
    (if h ≠ 0 then toString h ++ "小时" else "") ++
      (if m ≠ 0 ∨ h = 0 then toString m ++ "分" else "") ++ toString seconds ++ "秒"
  | some (minutes, none) =>
    let h := minutes / 60
    let m := minutes % 60
    if h ≠ 0 then toString h ++ "小时" ++ toString m ++ "分" else toString m ++ "分"
  | none => String.ofList (longHour s.toList)

def durationTextToSeconds (text : String) : Nat :=
  let s := String.ofList (longHour (strip text).toList)
  if isNoDuration s then 0 else
  let part := fun word => (searchNumber word s.toList).getD 0
  part "小时" * 3600 + part "分" * 60 + part "秒"

/-- The seconds the Hub reads in the text it displays for a duration. -/
def displayedSeconds (n : Int) : Nat :=
  durationTextToSeconds (prettyDurationText (humanDurationPrecise n))

-- ---------------------------------------------------------------------------
-- Digits and words
-- ---------------------------------------------------------------------------

structure Digits (ds : List Char) (n : Nat) : Prop where
  ne_nil : ds ≠ []
  isDigit : ∀ c ∈ ds, c.isDigit = true
  value : Nat.ofDigitChars 10 ds 0 = n

theorem digits_toDigits (n : Nat) : Digits (Nat.toDigits 10 n) n where
  ne_nil := Nat.toDigits_ne_nil
  isDigit := isDigit_toDigits
  value := Nat.ofDigitChars_ten_toDigits

theorem digits_zeroPadded (width n : Nat) : Digits (DateTime.zeroPadded width n) n where
  ne_nil := List.append_ne_nil_of_right_ne_nil _ Nat.toDigits_ne_nil
  isDigit := DateTime.isDigit_zeroPadded
  value := DateTime.ofDigitChars_zeroPadded width n

theorem isDecimal_of_isDigit {c : Char} (h : c.isDigit = true) : DateTime.isDecimal c = true := by
  rw [DateTime.isDecimal, digit?_of_isDigit h, Option.isSome_some]

theorem Digits.parse (h : Digits ds n) : parseDigits 0 false ds = some n := by
  obtain ⟨c, cs, rfl⟩ := List.exists_cons_of_ne_nil h.ne_nil
  have hc := h.isDigit c List.mem_cons_self
  have hne : c ≠ '_' := by
    rintro rfl
    exact absurd hc (by decide)
  have hfirst : parseDigits 0 false (c :: cs) = parseDigits 0 true (c :: cs) := by
    simp only [parseDigits, hne, if_false]
  rw [hfirst, parseDigits_digits h.isDigit, h.value]

section
variable {ds rest : List Char} {n : Nat} {word : String} {c : Char}

theorem readNumber_digits (h : Digits ds n) (hc : DateTime.isDecimal c = false) :
    readNumber (ds ++ c :: rest) = some (n, c :: rest) := by
  have hall : ∀ d ∈ ds, DateTime.isDecimal d = true := fun d hd =>
    isDecimal_of_isDigit (h.isDigit d hd)
  have hstop : ¬ DateTime.isDecimal c = true := by rw [hc]; exact Bool.false_ne_true
  rw [readNumber, List.takeWhile_append_of_pos hall, List.dropWhile_append_of_pos hall,
    List.takeWhile_cons_of_neg hstop, List.dropWhile_cons_of_neg hstop, List.append_nil, h.parse]
  rfl

theorem readNumber_char (hc : DateTime.isDecimal c = false) : readNumber (c :: rest) = none := by
  have hstop : ¬ DateTime.isDecimal c = true := by rw [hc]; exact Bool.false_ne_true
  rw [readNumber, List.takeWhile_cons_of_neg hstop]
  rfl

theorem searchNumber_char (hc : DateTime.isDecimal c = false) :
    searchNumber word (c :: rest) = searchNumber word rest := by
  rw [searchNumber, readNumber_char hc]

theorem searchNumber_found (word : String) (h : Digits ds n) (hc : DateTime.isDecimal c = false)
    (hword : (readWord word (c :: rest)).isSome = true) :
    searchNumber word (ds ++ c :: rest) = some n := by
  obtain ⟨d, ds', rfl⟩ := List.exists_cons_of_ne_nil h.ne_nil
  have hread : readNumber (d :: ds' ++ c :: rest) = some (n, c :: rest) := readNumber_digits h hc
  rw [List.cons_append] at hread ⊢
  simp only [searchNumber, hread, hword, if_true]

theorem searchNumber_skip (word : String) (h : ∀ d ∈ ds, d.isDigit = true)
    (hc : DateTime.isDecimal c = false) (hword : (readWord word (c :: rest)).isSome = false) :
    searchNumber word (ds ++ c :: rest) = searchNumber word rest := by
  induction ds with
  | nil => exact searchNumber_char hc
  | cons d ds ih =>
    have hdigits : Digits (d :: ds) (Nat.ofDigitChars 10 (d :: ds) 0) :=
      ⟨List.cons_ne_nil _ _, h, rfl⟩
    have hread : readNumber (d :: ds ++ c :: rest) =
        some (Nat.ofDigitChars 10 (d :: ds) 0, c :: rest) := readNumber_digits hdigits hc
    rw [List.cons_append] at hread ⊢
    simp only [searchNumber, hread, hword]
    exact ih fun e he => h e (List.mem_cons_of_mem _ he)

theorem longHour_digits (h : ∀ d ∈ ds, d.isDigit = true) :
    longHour (ds ++ rest) = ds ++ longHour rest := by
  induction ds with
  | nil => rfl
  | cons d ds ih =>
    have hd : ('时' == d) = false := by
      rw [beq_eq_false_iff_ne]
      rintro rfl
      exact absurd (h '时' List.mem_cons_self) (by decide)
    rw [longHour, List.cons_append, replaceAll, List.isPrefixOf, hd]
    exact congrArg (d :: ·) (ih fun e he => h e (List.mem_cons_of_mem _ he))

end

-- ---------------------------------------------------------------------------
-- The texts of a duration
-- ---------------------------------------------------------------------------

/-- Digits and the words of the units, the seconds among them. -/
structure Written (cs : List Char) : Prop where
  plain : ∀ c ∈ cs, c.isDigit = true ∨ c ∈ ['小', '时', '分', '秒']
  seconds : '秒' ∈ cs

theorem Written.strip (h : Written cs) : Py.strip (String.ofList cs) = String.ofList cs := by
  refine strip_of_noSpace fun c hc => ?_
  rw [String.toList_ofList] at hc
  rcases h.plain c hc with hdigit | hword
  · exact isSpace_of_isDigit hdigit
  · have hspace : ['小', '时', '分', '秒'].any isSpace = false := by decide
    exact Bool.not_eq_true _ ▸ List.any_eq_false.mp hspace c hword

theorem Written.isDuration (h : Written cs) : isNoDuration (String.ofList cs) = false := by
  have hne : ∀ t : String, '秒' ∉ t.toList → String.ofList cs ≠ t := by
    rintro t ht rfl
    exact ht (by rw [String.toList_ofList]; exact h.seconds)
  have hnone : String.ofList cs ∉ ["-", "null", "None"] := by
    simp only [List.mem_cons, List.not_mem_nil, or_false, not_or]
    exact ⟨hne _ (by decide), hne _ (by decide), hne _ (by decide)⟩
  rw [isNoDuration, Bool.or_eq_false_iff]
  exact ⟨beq_eq_false_iff_ne.mpr (hne _ (by decide)), by simpa using hnone⟩

section
variable {hds mds sds : List Char} {h m s : Nat}

theorem written_seconds (hs : Digits sds s) : Written (sds ++ ['秒']) where
  plain := fun c hc => by
    rcases List.mem_append.mp hc with hdigit | hword
    · exact .inl (hs.isDigit c hdigit)
    · simp_all
  seconds := by simp

theorem written_minutes (hm : Digits mds m) (hs : Digits sds s) :
    Written (mds ++ '分' :: (sds ++ ['秒'])) where
  plain := fun c hc => by
    rcases List.mem_append.mp hc with hdigit | hrest
    · exact .inl (hm.isDigit c hdigit)
    · rcases List.mem_cons.mp hrest with rfl | hseconds
      · exact .inr (by decide)
      · exact (written_seconds hs).plain c hseconds
  seconds := by simp

/-- The text of a number of hours, their word written out `k` times too often. -/
def hoursText (k : Nat) (hds mds sds : List Char) : List Char :=
  hds ++ (List.replicate k '小' ++ '小' :: '时' :: (mds ++ '分' :: (sds ++ ['秒'])))

theorem written_hours (k : Nat) (hh : Digits hds h) (hm : Digits mds m) (hs : Digits sds s) :
    Written (hoursText k hds mds sds) where
  plain := fun c hc => by
    rcases List.mem_append.mp hc with hdigit | hrest
    · exact .inl (hh.isDigit c hdigit)
    · rcases List.mem_append.mp hrest with hsmall | hwords
      · rw [List.eq_of_mem_replicate hsmall]
        exact .inr (by decide)
      · rcases List.mem_cons.mp hwords with rfl | hwords
        · exact .inr (by decide)
        · rcases List.mem_cons.mp hwords with rfl | hminutes
          · exact .inr (by decide)
          · exact (written_minutes hm hs).plain c hminutes
  seconds := by simp [hoursText]

theorem isDecimal_word {c : Char} (h : c ∈ ['小', '时', '分', '秒']) :
    DateTime.isDecimal c = false := by
  have hnone : ['小', '时', '分', '秒'].any DateTime.isDecimal = false := by decide +kernel
  exact Bool.not_eq_true _ ▸ List.any_eq_false.mp hnone c h

theorem longHour_seconds (hs : Digits sds s) : longHour (sds ++ ['秒']) = sds ++ ['秒'] := by
  rw [longHour_digits hs.isDigit]
  rfl

theorem longHour_minutes (hm : Digits mds m) (hs : Digits sds s) :
    longHour (mds ++ '分' :: (sds ++ ['秒'])) = mds ++ '分' :: (sds ++ ['秒']) := by
  rw [longHour_digits hm.isDigit]
  exact congrArg (mds ++ '分' :: ·) (longHour_seconds hs)

theorem longHour_hours (k : Nat) (hh : Digits hds h) (hm : Digits mds m) (hs : Digits sds s) :
    longHour (hoursText k hds mds sds) = hoursText (k + 1) hds mds sds := by
  have hwords : ∀ j, longHour (List.replicate j '小' ++ '小' :: '时' ::
      (mds ++ '分' :: (sds ++ ['秒']))) =
      List.replicate (j + 1) '小' ++ '小' :: '时' :: (mds ++ '分' :: (sds ++ ['秒'])) := by
    intro j
    induction j with
    | zero => exact congrArg ('小' :: '小' :: '时' :: ·) (longHour_minutes hm hs)
    | succ j ih => exact congrArg ('小' :: ·) ih
  rw [hoursText, longHour_digits hh.isDigit, hwords k]
  rfl

theorem seconds_of_seconds (hs : Digits sds s) :
    durationTextToSeconds (String.ofList (sds ++ ['秒'])) = s := by
  have hstop := isDecimal_word (c := '秒') (by decide)
  simp only [durationTextToSeconds, (written_seconds hs).strip, String.toList_ofList,
    longHour_seconds hs, (written_seconds hs).isDuration, Bool.false_eq_true, if_false]
  rw [searchNumber_skip "小时" hs.isDigit hstop (by decide),
    searchNumber_skip "分" hs.isDigit hstop (by decide),
    searchNumber_found "秒" hs hstop (by decide)]
  simp [searchNumber]

theorem seconds_of_minutes (hm : Digits mds m) (hs : Digits sds s) :
    durationTextToSeconds (String.ofList (mds ++ '分' :: (sds ++ ['秒']))) = m * 60 + s := by
  have hminute := isDecimal_word (c := '分') (by decide)
  have hsecond := isDecimal_word (c := '秒') (by decide)
  simp only [durationTextToSeconds, (written_minutes hm hs).strip, String.toList_ofList,
    longHour_minutes hm hs, (written_minutes hm hs).isDuration, Bool.false_eq_true, if_false]
  rw [searchNumber_skip "小时" hm.isDigit hminute rfl,
    searchNumber_skip "小时" hs.isDigit hsecond rfl,
    searchNumber_found "分" hm hminute rfl,
    searchNumber_skip "秒" hm.isDigit hminute rfl,
    searchNumber_found "秒" hs hsecond rfl]
  simp [searchNumber]

theorem seconds_of_hours (hh : Digits hds h) (hm : Digits mds m) (hs : Digits sds s) :
    durationTextToSeconds (String.ofList (hoursText 1 hds mds sds)) = m * 60 + s := by
  have hsmall := isDecimal_word (c := '小') (by decide)
  have hhour := isDecimal_word (c := '时') (by decide)
  have hminute := isDecimal_word (c := '分') (by decide)
  have hsecond := isDecimal_word (c := '秒') (by decide)
  have htail : ∀ word, (readWord word ('小' :: '小' :: '小' :: '时' ::
      (mds ++ '分' :: (sds ++ ['秒'])))).isSome = false →
      searchNumber word (hoursText 2 hds mds sds) =
        searchNumber word (mds ++ '分' :: (sds ++ ['秒'])) := by
    intro word hword
    have htext : hoursText 2 hds mds sds = hds ++ '小' :: '小' :: '小' :: '时' ::
      (mds ++ '分' :: (sds ++ ['秒'])) := rfl
    rw [htext, searchNumber_skip word hh.isDigit hsmall hword, searchNumber_char hsmall,
      searchNumber_char hsmall, searchNumber_char hhour]
  simp only [durationTextToSeconds, (written_hours 1 hh hm hs).strip, String.toList_ofList,
    longHour_hours 1 hh hm hs, (written_hours 2 hh hm hs).isDuration, Bool.false_eq_true, if_false]
  rw [htail "小时" rfl, htail "分" rfl, htail "秒" rfl,
    searchNumber_skip "小时" hm.isDigit hminute rfl,
    searchNumber_skip "小时" hs.isDigit hsecond rfl,
    searchNumber_found "分" hm hminute rfl,
    searchNumber_skip "秒" hm.isDigit hminute rfl,
    searchNumber_found "秒" hs hsecond rfl]
  simp [searchNumber]

/-- Minutes and seconds only, the seconds of an hour at most, stay as they
are but for the zero in front. -/
theorem pretty_minutes (hm : Digits mds m) (hs : Digits sds s) (h0 : m ≠ 0) (h60 : m < 60) :
    prettyDurationText (String.ofList (mds ++ '分' :: (sds ++ ['秒']))) =
      String.ofList (Nat.toDigits 10 m ++ '分' :: (Nat.toDigits 10 s ++ ['秒'])) := by
  have hminute := isDecimal_word (c := '分') (by decide)
  have hsecond := isDecimal_word (c := '秒') (by decide)
  have hread : minutesSeconds (mds ++ '分' :: (sds ++ ['秒'])) = some (m, some s) := by
    have hempty : (sds ++ ['秒']).isEmpty = false := by simp
    have hword : readWord "分" ('分' :: (sds ++ ['秒'])) = some (sds ++ ['秒']) := rfl
    have hlast : readWord "秒" ['秒'] = some [] := rfl
    simp only [minutesSeconds, readNumber_digits hm hminute, readNumber_digits hs hsecond, hword,
      hempty, hlast, Option.bind_eq_bind, Option.bind_some, Bool.false_eq_true, if_false,
      List.isEmpty_nil, if_true]
  have hdiv : m / 60 = 0 := Nat.div_eq_of_lt h60
  have hmod : m % 60 = m := Nat.mod_eq_of_lt h60
  simp only [prettyDurationText, (written_minutes hm hs).strip, (written_minutes hm hs).isDuration,
    Bool.false_eq_true, if_false, String.toList_ofList, hread, hdiv, hmod, h0, ne_eq,
    not_true_eq_false, not_false_eq_true, true_or, if_true]
  apply String.toList_injective
  simp [Nat.toList_repr]

theorem pretty_of_none {cs : List Char} (hw : Written cs) (hread : minutesSeconds cs = none) :
    prettyDurationText (String.ofList cs) = String.ofList (longHour cs) := by
  simp only [prettyDurationText, hw.strip, hw.isDuration, Bool.false_eq_true, if_false,
    String.toList_ofList, hread]

theorem minutesSeconds_other {c : Char} {rest : List Char} (hh : Digits hds h)
    (hc : DateTime.isDecimal c = false) (hword : readWord "分" (c :: rest) = none) :
    minutesSeconds (hds ++ c :: rest) = none := by
  simp only [minutesSeconds, readNumber_digits hh hc, hword, Option.bind_eq_bind, Option.bind_some,
    Option.bind_none]

end

/-- The seconds that the Hub reads back are those beyond the last full hour. -/
theorem displayedSeconds_eq {n : Int} (hn : 0 < n) : (displayedSeconds n : Int) = n % 3600 := by
  obtain ⟨k, rfl⟩ := Int.eq_ofNat_of_zero_le hn.le
  have hpos : 0 < k := by omega
  suffices hk : displayedSeconds k = k % 3600 by omega
  have hnot : ¬ (k : Int) ≤ 0 := by omega
  have htwo := digits_zeroPadded 2
  have hone := digits_toDigits
  rw [displayedSeconds, humanDurationPrecise, if_neg hnot]
  simp only [Int.toNat_natCast]
  by_cases hhour : 0 < k / 3600
  · rw [if_pos hhour]
    have htext : toString (k / 3600) ++ "小时" ++ String.ofList (DateTime.zeroPadded 2 (k % 3600 / 60))
        ++ "分" ++ String.ofList (DateTime.zeroPadded 2 (k % 60)) ++ "秒" =
        String.ofList (hoursText 0 (Nat.toDigits 10 (k / 3600))
          (DateTime.zeroPadded 2 (k % 3600 / 60)) (DateTime.zeroPadded 2 (k % 60))) := by
      apply String.toList_injective
      simp [hoursText, Nat.toList_repr]
    rw [htext, pretty_of_none (written_hours 0 (hone _) (htwo _) (htwo _))
      (minutesSeconds_other (hone _) (isDecimal_word (c := '小') (by decide)) rfl),
      longHour_hours 0 (hone _) (htwo _) (htwo _), seconds_of_hours (hone _) (htwo _) (htwo _)]
    omega
  · rw [if_neg hhour]
    by_cases hminute : 0 < k % 3600 / 60
    · rw [if_pos hminute]
      have htext : toString (k % 3600 / 60) ++ "分" ++
          String.ofList (DateTime.zeroPadded 2 (k % 60)) ++ "秒" =
          String.ofList (Nat.toDigits 10 (k % 3600 / 60) ++ '分' ::
            (DateTime.zeroPadded 2 (k % 60) ++ ['秒'])) := by
        apply String.toList_injective
        simp [Nat.toList_repr]
      rw [htext, pretty_minutes (hone _) (htwo _) (by omega) (by omega),
        seconds_of_minutes (hone _) (hone _)]
      omega
    · rw [if_neg hminute]
      have htext : toString (k % 60) ++ "秒" =
          String.ofList (Nat.toDigits 10 (k % 60) ++ ['秒']) := by
        apply String.toList_injective
        simp [Nat.toList_repr]
      rw [htext, pretty_of_none (written_seconds (hone _))
        (minutesSeconds_other (hone _) (isDecimal_word (c := '秒') (by decide)) rfl),
        longHour_seconds (hone _), seconds_of_seconds (hone _)]
      omega

/-- A displayed duration is read back if and only if it is below an hour. -/
theorem displayedSeconds_eq_iff {n : Int} (hn : 0 < n) :
    (displayedSeconds n : Int) = n ↔ n < 3600 := by
  rw [displayedSeconds_eq hn]
  omega

theorem displayedSeconds_eq_iff_minutes : (displayedSeconds 754 : Int) = 754 ↔ (754 : Int) < 3600 :=
  displayedSeconds_eq_iff (by decide)

/-- The word of the hours is written out once too often, so they are lost. -/
theorem hour_lost :
    prettyDurationText (humanDurationPrecise 3725) = "1小小时02分05秒" ∧
      displayedSeconds 3725 = 125 ∧ ¬ (displayedSeconds 3725 : Int) = 3725 := by
  decide +kernel

end LabProbe.Devices
