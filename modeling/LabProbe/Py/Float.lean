import LabProbe.Py.Text
import Mathlib.Algebra.Order.Field.Rat

/-!
# `float` of a text

The decimal literals `float` reads, rounded to the nearest double. The
infinities and NaN are no numbers here: `int` raises on them, and what it
raises on an infinity is another exception.
-/

namespace Py

/-- Digits with single underscores between them, from the front of a text;
`inside` says that the character before is a digit. -/
def digitRun (inside : Bool) : List Char → List Nat × List Char
  | [] => ([], [])
  | c :: cs =>
    if c = '_' then
      if inside && (cs.head?.bind digit?).isSome then digitRun false cs else ([], c :: cs)
    else match digit? c with
      | some d => (d :: (digitRun true cs).1, (digitRun true cs).2)
      | none => ([], c :: cs)

def digitsValue (ds : List Nat) : Nat := ds.foldl (fun n d => n * 10 + d) 0

def takeSign : List Char → Bool × List Char
  | '-' :: cs => (true, cs)
  | '+' :: cs => (false, cs)
  | cs => (false, cs)

def parseExponent : List Char → Option Int
  | [] => some 0
  | c :: cs =>
    if c = 'e' ∨ c = 'E' then
      let (minus, cs) := takeSign cs
      match digitRun false cs with
      | ([], _) => none
      | (ds, []) => some (if minus then -(digitsValue ds : Int) else digitsValue ds)
      | _ => none
    else none

def roundHalfEven (q : Rat) : Int :=
  let rest := q - q.floor
  if rest < 1 / 2 ∨ (rest = 1 / 2 ∧ q.floor % 2 = 0) then q.floor else q.floor + 1

def toDouble (q : Rat) : Option Rat :=
  if q = 0 then some 0
  else
    let guess : Int := (q.num.toNat.log2 : Int) - q.den.log2
    let exponent := if q < 2 ^ guess then guess - 1 else guess
    let unit : Rat := 2 ^ max (exponent - 52) (-1074)
    let rounded := roundHalfEven (q / unit) * unit
    if rounded < 2 ^ 1024 then some rounded else none

def parseLiteral (cs : List Char) : Option Rat := do
  let (whole, cs) := digitRun false cs
  let (fraction, cs) := match cs with
    | '.' :: cs => digitRun false cs
    | cs => ([], cs)
  if whole.isEmpty && fraction.isEmpty then none else
  let exponent ← parseExponent cs
  some (digitsValue (whole ++ fraction) * 10 ^ (exponent - fraction.length))

def signed (s : String) : Bool × List Char :=
  takeSign (List.rdropWhile isIntSpace (s.toList.dropWhile isIntSpace))

/-- `float(s)`. -/
def parseFloat (s : String) : Option Rat := do
  let (minus, cs) := signed s
  let size ← toDouble (← parseLiteral cs)
  some (if minus then -size else size)

def isInfinity (s : String) : Bool :=
  let cs := (signed s).2
  String.ofList (cs.map Char.toLower) ∈ ["inf", "infinity"] ||
    (parseLiteral cs).any fun q => (toDouble q).isNone

def truncate (q : Rat) : Int := if q < 0 then q.ceil else q.floor

example : parseFloat " 1_0.5e1\n" = some 105 ∧ parseFloat "-.5" = some (-1 / 2) ∧
    parseFloat "1__0" = none ∧ parseFloat "." = none := by decide +kernel

example : parseFloat "9007199254740993" = some 9007199254740992 := by decide +kernel

example : isInfinity " -Infinity " = true ∧ isInfinity "1e309" = true ∧
    isInfinity "1e308" = false ∧ isInfinity "nan" = false := by decide +kernel

end Py
