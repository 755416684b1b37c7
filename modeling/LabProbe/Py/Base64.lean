import LabProbe.Py.Text

/-!
# Base64

The strict decoder of the standard library, which does not look at the bits
left over in the symbol before the padding, and the encoder, whose texts are
the canonical ones.
-/

namespace Py.Base64

-- ---------------------------------------------------------------------------
-- Symbols
-- ---------------------------------------------------------------------------

def value? (c : Char) : Option Nat :=
  let n := c.toNat
  if 65 ≤ n && n ≤ 90 then some (n - 65)
  else if 97 ≤ n && n ≤ 122 then some (n - 71)
  else if 48 ≤ n && n ≤ 57 then some (n + 4)
  else if c = '+' then some 62
  else if c = '/' then some 63
  else none

def symbol (v : Nat) : Char :=
  if v < 26 then Char.ofNat (65 + v)
  else if v < 52 then Char.ofNat (71 + v)
  else if v < 62 then Char.ofNat (v - 4)
  else if v = 62 then '+' else '/'

-- ---------------------------------------------------------------------------
-- Decoding
-- ---------------------------------------------------------------------------

/-- The loop of `a2b_base64` in strict mode: `quad` counts the symbols of a
group of four, `left` holds the bits not yet emitted. -/
def decodeLoop (quad left pads : Nat) (padded : Bool) : List Char → Option (List Nat)
  | [] => if quad = 0 then some [] else none
  | c :: cs =>
    if c = '=' then
      if 2 ≤ quad then
        if 4 ≤ quad + (pads + 1) then if cs.isEmpty then some [] else none
        else decodeLoop quad left (pads + 1) true cs
      else decodeLoop quad left pads true cs
    else match value? c with
    | none => none
    | some v =>
      if padded then none
      else if quad = 0 then decodeLoop 1 v 0 false cs
      else if quad = 1 then (decodeLoop 2 (v % 16) 0 false cs).map (List.cons (left * 4 + v / 16))
      else if quad = 2 then (decodeLoop 3 (v % 4) 0 false cs).map (List.cons (left * 16 + v / 4))
      else (decodeLoop 0 0 0 false cs).map (List.cons (left * 64 + v))

/-- `b64decode(s, validate=True)`. -/
def decode (s : String) : Option (List Nat) :=
  if s.toList.head? = some '=' then none else decodeLoop 0 0 0 false s.toList

-- ---------------------------------------------------------------------------
-- Encoding
-- ---------------------------------------------------------------------------

def encodeChars : List Nat → List Char
  | [] => []
  | [a] => [symbol (a / 4), symbol (a % 4 * 16), '=', '=']
  | [a, b] => [symbol (a / 4), symbol (a % 4 * 16 + b / 16), symbol (b % 16 * 4), '=']
  | a :: b :: c :: bytes =>
    symbol (a / 4) :: symbol (a % 4 * 16 + b / 16) :: symbol (b % 16 * 4 + c / 64) ::
      symbol (c % 64) :: encodeChars bytes

/-- `b64encode(bytes)`. -/
def encode (bytes : List Nat) : String := String.ofList (encodeChars bytes)

/-- A text is canonical when encoding what it decodes to gives it back. -/
def isCanonical (s : String) : Bool := (decode s).map encode == some s

end Py.Base64
