import LabProbe.Py.Text

/-!
# Naive local times

Dates and times without a zone, to the second: the calendar, the texts
`strftime` writes of them and those `strptime` reads.
-/

namespace Py

-- ---------------------------------------------------------------------------
-- The calendar
-- ---------------------------------------------------------------------------

def isLeap (year : Nat) : Bool := year % 4 == 0 && (year % 100 != 0 || year % 400 == 0)

def daysInMonth (year month : Nat) : Nat :=
  if month = 2 then if isLeap year then 29 else 28
  else if [4, 6, 9, 11].contains month then 30 else 31

def isDateTime (year month day hour minute second : Nat) : Bool :=
  1 ≤ year && year ≤ 9999 && 1 ≤ month && month ≤ 12 && 1 ≤ day && day ≤ daysInMonth year month &&
    hour < 24 && minute < 60 && second < 60

structure DateTime where
  year : Nat
  month : Nat
  day : Nat
  hour : Nat
  minute : Nat
  second : Nat
  valid : isDateTime year month day hour minute second = true
  deriving DecidableEq

namespace DateTime

def daysBeforeYear (year : Nat) : Nat :=
  let y := year - 1
  y * 365 + y / 4 - y / 100 + y / 400

def daysBeforeMonth (year month : Nat) : Nat :=
  ((List.range (month - 1)).map fun m => daysInMonth year (m + 1)).sum

def toOrdinal (t : DateTime) : Nat :=
  daysBeforeYear t.year + daysBeforeMonth t.year t.month + t.day

/-- The seconds since midnight. -/
def secondOfDay (t : DateTime) : Nat := t.hour * 3600 + t.minute * 60 + t.second

def seconds (t : DateTime) : Nat := t.toOrdinal * 86400 + t.secondOfDay

def zeroPadded (width n : Nat) : List Char :=
  let digits := Nat.toDigits 10 n
  List.replicate (width - digits.length) '0' ++ digits

def dateChars (t : DateTime) : List Char :=
  zeroPadded 4 t.year ++ '-' :: zeroPadded 2 t.month ++ '-' :: zeroPadded 2 t.day

/-- `t.date().isoformat()`. -/
def isoDate (t : DateTime) : String := String.ofList t.dateChars

/-- `t.strftime("%Y-%m-%d %H:%M:%S")`. -/
def stamp (t : DateTime) : String :=
  String.ofList (t.dateChars ++ ' ' :: zeroPadded 2 t.hour ++ ':' :: zeroPadded 2 t.minute ++
    ':' :: zeroPadded 2 t.second)

-- ---------------------------------------------------------------------------
-- Reading
-- ---------------------------------------------------------------------------

/-- The number of one or two characters that the pattern of a field matches:
`first` says which second digits may follow a first one, `single` which
digits may stand alone. -/
def fieldValue (first : Char → Option (Char → Bool)) (single : Char → Bool) :
    List Char → Option Nat
  | [c, d] => do
    let second ← first c
    if second d then some ((digit? c).getD 0 * 10 + (← digit? d)) else none
  | [c] => if single c then digit? c else none
  | _ => none

def isDecimal (c : Char) : Bool := (digit? c).isSome

def between (low high : Char) (c : Char) : Bool := low ≤ c && c ≤ high

def monthValue : List Char → Option Nat :=
  fieldValue (fun c => if c = '1' then some (between '0' '2')
    else if c = '0' then some (between '1' '9') else none) (between '1' '9')

def dayValue : List Char → Option Nat :=
  fieldValue (fun c => if c = '3' then some (between '0' '1')
    else if c = '1' ∨ c = '2' then some isDecimal
    else if c = '0' ∨ c = ' ' then some (between '1' '9') else none) (between '1' '9')

def hourValue : List Char → Option Nat :=
  fieldValue (fun c => if c = '2' then some (between '0' '3')
    else if c = '0' ∨ c = '1' then some isDecimal else none) isDecimal

def minuteValue : List Char → Option Nat :=
  fieldValue (fun c => if between '0' '5' c then some isDecimal else none) isDecimal

def secondValue : List Char → Option Nat :=
  fieldValue (fun c => if c = '6' then some (between '0' '1')
    else if between '0' '5' c then some isDecimal else none) isDecimal

def readField {α : Type} (value : List Char → Option Nat) (rest : Nat → List Char → Option α)
    (cs : List Char) : Option α :=
  ((value (cs.take 2)).bind fun n => rest n (cs.drop 2)).or
    ((value (cs.take 1)).bind fun n => rest n (cs.drop 1))

def readChar {α : Type} (c : Char) (rest : List Char → Option α) : List Char → Option α
  | d :: cs => if d = c then rest cs else none
  | [] => none

def readSpaces {α : Type} (rest : List Char → Option α) : List Char → Option α
  | c :: cs => if isSpace c then rest (cs.dropWhile isSpace) else none
  | [] => none

def readLetter {α : Type} (rest : List Char → Option α) : List Char → Option α
  | c :: cs => if c = 'T' ∨ c = 't' then rest cs else none
  | [] => none

def strptime (separator : (List Char → Option DateTime) → List Char → Option DateTime)
    (cs : List Char) : Option DateTime := do
  let year ← (cs.take 4).mapM digit?
  if year.length ≠ 4 then none else
  let year := year.foldl (fun n d => n * 10 + d) 0
  readChar '-' (readField monthValue fun month => readChar '-' (readField dayValue fun day =>
    separator (readField hourValue fun hour => readChar ':' (readField minuteValue fun minute =>
      readChar ':' (readField secondValue fun second rest =>
        if h : rest = [] ∧ isDateTime year month day hour minute second = true then
          some ⟨year, month, day, hour, minute, second, h.2⟩
        else none))))) (cs.drop 4)

/-- The formats `%Y-%m-%d %H:%M:%S` and `%Y-%m-%dT%H:%M:%S`. -/
def parse (s : String) : Option DateTime :=
  (strptime readSpaces s.toList).or (strptime readLetter s.toList)

example : (parse "2026-02-28 23:59:07").map stamp = some "2026-02-28 23:59:07" ∧
    (parse "2026-2- 8t1:5:9").map stamp = some "2026-02-08 01:05:09" ∧
    parse "2026-02-29 00:00:00" = none ∧ parse "2026-02-28 23:59:60" = none := by decide

-- ---------------------------------------------------------------------------
-- The text of a date
-- ---------------------------------------------------------------------------

theorem length_zeroPadded {width n : Nat} (hw : 0 < width) (h : n < 10 ^ width) :
    (zeroPadded width n).length = width := by
  have hlength := (Nat.length_toDigits_le_iff (by decide : 1 < 10) hw).mpr h
  rw [zeroPadded, List.length_append, List.length_replicate]
  omega

theorem ofDigitChars_zeroPadded (width n : Nat) : Nat.ofDigitChars 10 (zeroPadded width n) 0 = n := by
  rw [zeroPadded, Nat.ofDigitChars_append, Nat.ofDigitChars_replicate_zero, Nat.mul_zero,
    Nat.ofDigitChars_ten_toDigits]

theorem zeroPadded_inj {width m n : Nat} (h : zeroPadded width m = zeroPadded width n) : m = n := by
  rw [← ofDigitChars_zeroPadded width m, h, ofDigitChars_zeroPadded]

theorem fields_lt (t : DateTime) : t.year < 10 ^ 4 ∧ t.month < 10 ^ 2 ∧ t.day < 10 ^ 2 := by
  have hvalid := t.valid
  have hdays : daysInMonth t.year t.month ≤ 31 := by
    unfold daysInMonth
    split
    · split <;> omega
    · split <;> omega
  simp only [isDateTime, Bool.and_eq_true, decide_eq_true_eq] at hvalid
  omega

theorem length_dateChars (t : DateTime) : t.dateChars.length = 10 := by
  obtain ⟨hyear, hmonth, hday⟩ := t.fields_lt
  rw [dateChars, List.length_append, List.length_cons, List.length_append, List.length_cons,
    length_zeroPadded (by decide) hyear, length_zeroPadded (by decide) hmonth,
    length_zeroPadded (by decide) hday]

theorem isoDate_inj {s t : DateTime} (h : s.isoDate = t.isoDate) :
    s.year = t.year ∧ s.month = t.month ∧ s.day = t.day := by
  obtain ⟨hyear, hmonth, -⟩ := s.fields_lt
  obtain ⟨hyear', hmonth', -⟩ := t.fields_lt
  have hchars : s.dateChars = t.dateChars := String.ofList_injective h
  have hy4 := length_zeroPadded (by decide) hyear
  have hy4' := length_zeroPadded (by decide) hyear'
  have hm2 := length_zeroPadded (by decide) hmonth
  have hm2' := length_zeroPadded (by decide) hmonth'
  obtain ⟨hfront, hd⟩ := List.append_inj hchars (by simp [hy4, hy4', hm2, hm2'])
  obtain ⟨hy, hm⟩ := List.append_inj hfront (by rw [hy4, hy4'])
  exact ⟨zeroPadded_inj hy, zeroPadded_inj (List.tail_eq_of_cons_eq hm),
    zeroPadded_inj (List.tail_eq_of_cons_eq hd)⟩

theorem isDigit_zeroPadded {width n : Nat} : ∀ c ∈ zeroPadded width n, c.isDigit = true := by
  intro c hc
  rcases List.mem_append.mp hc with hzero | hdigit
  · rw [List.eq_of_mem_replicate hzero]
    decide
  · exact isDigit_toDigits c hdigit

end DateTime

end Py
