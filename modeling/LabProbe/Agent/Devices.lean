import LabProbe.Relay.Net
import LabProbe.Relay.Redacted
import LabProbe.Py.Float
import LabProbe.Py.Json

/-!
# What the agent reads from the router

`find_devices` gathers the devices of a user list, `device_rows` the rows of
the realtime lane, and `apply_errors` the errors of a detection. Each slices a
text at byte offsets: a MAC address of twelve bytes into pairs, a long error at
byte 400. None says that the program panics there. Objects are in the order of
their map.
-/

namespace LabProbe.Agent

open Py Py.Json Relay Utf8

-- ---------------------------------------------------------------------------
-- MAC addresses
-- ---------------------------------------------------------------------------

/-- `value.trim().replace('-', ":").to_ascii_lowercase()`. -/
def rawMac (value : String) : List Char :=
  (toAsciiLowercase (String.ofList
    ((trim value).toList.map fun c => if c = '-' then ':' else c))).toList

/-- Both copies of the function split twelve bytes without a colon into pairs. -/
def macOf (value : String) : Option String :=
  let raw := rawMac value
  if raw.contains ':' ∨ (encode raw).length ≠ 12 then some (String.ofList raw)
  else do
    let pairs ← (List.range 6).mapM fun i => sliceChars raw (i * 2) (i * 2 + 2)
    return String.ofList ([':'].intercalate pairs)

def normalizeMac (value : String) : Option String := macOf value

def normalizedMac (value : String) : Option String := macOf value

def macKeys : List String := ["mac", "devMac", "macAddr", "staMac", "deviceMac"]

def asStr? : Json → Option String
  | .str s => some s
  | _ => none

def macText (object : Entries) : Option String :=
  macKeys.findSome? fun key => (Dict.get? object key).bind asStr?

-- ---------------------------------------------------------------------------
-- The devices of a user list
-- ---------------------------------------------------------------------------

def deviceMac (object : Entries) : Option (Option String) :=
  match macText object with
  | none => some none
  | some text => do
    let mac ← normalizeMac text
    return if mac = "" then none else some mac

def insertDevice (object : Entries) (output : List (String × Json)) :
    Option (List (String × Json)) := do
  let mac ← deviceMac object
  return match mac with
    | some mac => Dict.set output mac (.dict object)
    | none => output

mutual
def findDevices : Json → List (String × Json) → Option (List (String × Json))
  | .dict object, output => do
    let output ← insertDevice object output
    findEntries object output
  | .list items, output => findItems items output
  | _, output => some output
def findItems : List Json → List (String × Json) → Option (List (String × Json))
  | [], output => some output
  | child :: items, output => do
    let output ← findDevices child output
    findItems items output
def findEntries : List (String × Json) → List (String × Json) → Option (List (String × Json))
  | [], output => some output
  | (_, child) :: object, output => do
    let output ← findDevices child output
    findEntries object output
end

-- ---------------------------------------------------------------------------
-- Numbers
-- ---------------------------------------------------------------------------

inductive F64 where
  | finite (q : Rat)
  | infinite (negative : Bool)
  | nan

def F64.of (negative : Bool) (size : Rat) : F64 :=
  match toDouble size with
  | some q => .finite (if negative then -q else q)
  | none => .infinite negative

/-- `value.max(0.0) as u64`. -/
def F64.toU64 : F64 → Nat
  | .finite q => min q.floor.toNat (2 ^ 64 - 1)
  | .infinite negative => if negative then 0 else 2 ^ 64 - 1
  | .nan => 0

def f64Exponent : List Char → Option Int
  | [] => some 0
  | c :: cs =>
    if c = 'e' ∨ c = 'E' then
      let (minus, digits) := takeSign cs
      if digits.isEmpty || !digits.all Char.isDigit then none
      else some (if minus then -(decimalValue digits : Int) else decimalValue digits)
    else none

def parseF64 (s : String) : Option F64 :=
  let (minus, cs) := takeSign s.toList
  let whole := cs.takeWhile Char.isDigit
  let (fraction, rest) := match cs.dropWhile Char.isDigit with
    | '.' :: rest => (rest.takeWhile Char.isDigit, rest.dropWhile Char.isDigit)
    | rest => ([], rest)
  if whole.isEmpty && fraction.isEmpty then
    let name := toAsciiLowercase (String.ofList cs)
    if name = "nan" then some .nan
    else if name = "inf" ∨ name = "infinity" then some (.infinite minus)
    else none
  else do
    let exponent ← f64Exponent rest
    return F64.of minus (decimalValue (whole ++ fraction) * 10 ^ (exponent - fraction.length))

/-- `as_f64` of a number, or the number that a text has before its per cent sign. -/
def number : Option Json → Nat
  | some (.int n) => (F64.of (n < 0) n.natAbs).toU64
  | some (.float q _) => (F64.finite q).toU64
  | some (.str s) => ((parseF64 (trimEndMatches '%' (trim s))).getD (.finite 0)).toU64
  | _ => 0

def itemNumber (object : Entries) (keys : List String) : Nat :=
  ((keys.findSome? (Dict.get? object)).map fun value => number (some value)).getD 0

-- ---------------------------------------------------------------------------
-- The rows of the realtime lane
-- ---------------------------------------------------------------------------

def arrayKeys : List String := ["list", "items", "devices", "users"]

mutual
def deviceArray : Json → List Json
  | .list items => items
  | .dict object =>
    match arrayKeys.findSome? fun key => (Dict.get? object key).bind list? with
    | some items => items
    | none => deviceArrayData object
  | _ => []
def deviceArrayData : List (String × Json) → List Json
  | [] => []
  | (key, value) :: object => if key = "data" then deviceArray value else deviceArrayData object
end

def uploadKeys : List String :=
  ["realtimeUploadBytes", "realtimeUpBytes", "realtimeUpload", "flowUp", "uploadBps", "upSpeed",
   "txSpeed", "tx_rate"]

def downloadKeys : List String :=
  ["realtimeDownloadBytes", "realtimeDownBytes", "realtimeDownload", "flowDown", "downloadBps",
   "downSpeed", "rxSpeed", "rx_rate"]

def connectionKeys : List String :=
  ["connectionCount", "flow_cnt", "flowCnt", "connCount", "connections"]

def deviceRow (item : Json) : Option (Option (String × Json)) :=
  match item with
  | .dict object => do
    let mac ← match macText object with
      | some text => normalizedMac text
      | none => some ""
    return if mac = "" then none else some (mac, .dict
      [("mac", .str mac),
       ("uploadBps", .int (itemNumber object uploadKeys)),
       ("downloadBps", .int (itemNumber object downloadKeys)),
       ("connectionCount", .int (itemNumber object connectionKeys))])
  | _ => some none

def deviceRows (root : Json) : Option (List Json) := do
  let rows ← (deviceArray root).mapM deviceRow
  return ((rows.filterMap id).insertionSort fun left right => left.1 ≤ right.1).map Prod.snd

-- ---------------------------------------------------------------------------
-- The errors of a detection
-- ---------------------------------------------------------------------------

/-- `WireGuardStatus::apply_errors`, on the error of the status. -/
def applyErrors (errors : List String) (error : Option (List UInt8)) :
    Option (Option (List UInt8)) :=
  if errors.isEmpty then some error
  else do
    let message ← sanitizeSensitive (" | ".intercalate errors)
    if 400 < message.length then
      if isBoundary message 400 then
        return some (message.take 400 ++ encode "...".toList)
      else none
    else return some message

end LabProbe.Agent
