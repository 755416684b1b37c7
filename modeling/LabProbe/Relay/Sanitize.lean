import LabProbe.Lib.Spans
import Mathlib.Data.List.Sort

/-!
# The scrubber of the agent

`sanitize_sensitive` takes key material out of a text before it goes into an
error: what follows a keyword in its segment, and tokens of 44 characters of
base64. It works on the bytes of the text. A slice off the character
boundaries, or a loop that does not come to its end, gives none.
-/

namespace LabProbe.Relay

open Spans

-- ---------------------------------------------------------------------------
-- Bytes
-- ---------------------------------------------------------------------------

def isAsciiAlphanumeric (b : UInt8) : Bool :=
  (48 ≤ b && b ≤ 57) || (65 ≤ b && b ≤ 90) || (97 ≤ b && b ≤ 122)

def isB64 (b : UInt8) : Bool := isAsciiAlphanumeric b || b == '+'.toUInt8 || b == '/'.toUInt8

def inToken (b : UInt8) : Bool := isB64 b || b == '='.toUInt8

/-- `u8::to_ascii_lowercase`. -/
def byteLowercase (b : UInt8) : UInt8 := if 65 ≤ b && b ≤ 90 then b + 32 else b

/-- `find(['\n', '|'])`: the bytes that end a segment. -/
def isSeparator (b : UInt8) : Bool := b == '\n'.toUInt8 || b == '|'.toUInt8

def keywords : List (List UInt8) :=
  ["private", "preshared", "secret"].map fun k => Utf8.encode k.toList

def redacted : List UInt8 := Utf8.encode "REDACTED".toList

def marker : List UInt8 := '['.toUInt8 :: redacted ++ [']'.toUInt8]

-- ---------------------------------------------------------------------------
-- Keyword-led segments
-- ---------------------------------------------------------------------------

def firstKeyword (rest : List UInt8) : Option Nat :=
  (keywords.filterMap fun keyword => Utf8.find keyword rest).min?

def segmentEnd (lower rest : List UInt8) (start : Nat) : Nat :=
  match rest.findIdx? isSeparator with
  | some offset => start + offset
  | none => lower.length

def keywordSpans (lower : List UInt8) : Nat → Nat → Option (List (Nat × Nat))
  | 0, searchFrom => if searchFrom < lower.length then none else some []
  | fuel + 1, searchFrom =>
    if searchFrom < lower.length then do
      let rest ← Utf8.slice lower searchFrom lower.length
      match firstKeyword rest with
      | none => return []
      | some offset =>
        let start := searchFrom + offset
        let rest ← Utf8.slice lower start lower.length
        let stop := segmentEnd lower rest start
        let later ← keywordSpans lower fuel stop
        return if start < stop then (start, stop) :: later else later
    else some []

-- ---------------------------------------------------------------------------
-- Standalone tokens
-- ---------------------------------------------------------------------------

def validKey (bytes : List UInt8) (start index : Nat) : Bool :=
  let length := index - start
  (length == 44 && bytes[start + 43]? == some '='.toUInt8) ||
    (length == 44 && bytes[index - 1]? != some '='.toUInt8) ||
    (length == 43 && bytes[index]? == some '='.toUInt8)

def boundaryOk (bytes : List UInt8) (start : Nat) : Bool :=
  start == 0 || !(bytes[start - 1]?.any inToken)

def boundaryEndOk (bytes : List UInt8) (index : Nat) : Bool :=
  bytes.length ≤ index || !(bytes[index]?.any inToken)

def tokenSpans (bytes : List UInt8) : Nat → Nat → Option (List (Nat × Nat))
  | 0, index => if index < bytes.length then none else some []
  | fuel + 1, index =>
    match bytes[index]? with
    | none => some []
    | some byte =>
      if !isB64 byte then tokenSpans bytes fuel (index + 1)
      else do
        let start := index
        let index := start + ((bytes.drop start).takeWhile inToken).length
        let later ← tokenSpans bytes fuel index
        return if validKey bytes start index && boundaryOk bytes start && boundaryEndOk bytes index
          then (start, index) :: later else later

def sortSpans (spans : List (Nat × Nat)) : List (Nat × Nat) :=
  spans.insertionSort fun s t => s.1 ≤ t.1

def sanitizeSensitive (text : String) : Option (List UInt8) := do
  let bytes := Utf8.encode text.toList
  let lower := bytes.map byteLowercase
  let keyword ← keywordSpans lower lower.length 0
  let token ← tokenSpans bytes bytes.length 0
  if (keyword ++ token).isEmpty then return bytes
  splice marker bytes 0 (merge (sortSpans (keyword ++ token)))

example : sanitizeSensitive "a Secret|b" = some (Utf8.encode "a [REDACTED]|b".toList) := by
  decide

end LabProbe.Relay
