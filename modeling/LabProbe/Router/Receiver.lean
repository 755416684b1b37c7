import LabProbe.Hub.Values
import LabProbe.Py.Float

/-!
# The receiver of the router's websocket

`_dispatch_message` with the test for a lost login and the numbers of a fast
frame. A frame is what `json.loads` has read: an infinity or NaN in it is a
float with the text `inf`, `-inf` or `nan`, of which only the text and the truth
are looked at.

`room` is the number of calls of `_lookup_recursive` that may be nested when
`_sum_wan_rows` makes the first; the others start one or two calls further up.
That the stack has place for the calls that do not nest is taken for granted.
The times of the frames are left out.
-/

namespace LabProbe.Router

open Py Py.Json

def wsMessageTypes : List String := ["static", "slow", "fast", "recent_wan", "daily_wan", "ping"]

def fastWanIntFields : List (String × List String) :=
  [("uploadBps", ["up", "uploadBps", "upload_bps", "uploadSpeed", "upSpeed", "txSpeed"]),
    ("downloadBps", ["down", "downloadBps", "download_bps", "downloadSpeed", "downSpeed", "rxSpeed"]),
    ("totalUploadBytes", ["total_up", "totalUploadBytes", "totalUpload", "txBytes"]),
    ("totalDownloadBytes", ["total_down", "totalDownloadBytes", "totalDownload", "rxBytes"]),
    ("ipv4Connections", ["ipv4_connection_count", "ipv4Connections", "ipv4Conn", "v4Conn"]),
    ("ipv6Connections", ["ipv6_connection_count", "ipv6Connections", "ipv6Conn", "v6Conn"]),
    ("ipv4HalfConnections", ["ipv4_half_connection_count", "ipv4HalfConnections"]),
    ("ipv6HalfConnections", ["ipv6_half_connection_count", "ipv6HalfConnections"]),
    ("cps", ["cps", "connectionsPerSecond"])]

def fastRootIntFields : List (String × List String) :=
  [("uptimeSeconds", ["runtime", "uptime", "uptimeSeconds"]),
    ("onlineDeviceCount",
      ["onlineDeviceCount", "online_device_count", "online_sta_count", "sta_num", "user_count"]),
    ("maxConnections", ["conntrack_max", "maxConnections"])]

def fastRootNumberFields : List (String × List String) :=
  [("cpuPercent", ["cpu_usage", "cpuUsage", "cpuutil", "cpuPercent"]),
    ("memoryPercent", ["memutil", "memoryPercent", "memory_usage"]),
    ("temperatureC", ["temp", "temperature", "temperatureC"])]

inductive Raised where
  | authExpired | recursion | overflow | notANumber
  deriving DecidableEq

-- ---------------------------------------------------------------------------
-- Numbers
-- ---------------------------------------------------------------------------

inductive Double where
  | finite (q : Rat)
  | infinite (minus : Bool)
  | nan
  deriving DecidableEq

/-- `float` of a text, the infinities and NaN among its values. -/
def parseDouble (s : String) : Option Double :=
  let (minus, cs) := takeSign (List.rdropWhile isIntSpace (s.toList.dropWhile isIntSpace))
  let name := asciiLower (String.ofList cs)
  if name = "nan" then some .nan
  else if name = "inf" ∨ name = "infinity" then some (.infinite minus)
  else
    let (whole, cs) := digitRun false cs
    let (fraction, cs) := match cs with
      | '.' :: cs => digitRun false cs
      | cs => ([], cs)
    if whole.isEmpty && fraction.isEmpty then none
    else (parseExponent cs).map fun exponent : Int =>
      match toDouble (digitsValue (whole ++ fraction) * 10 ^ (exponent - (fraction.length : Int))) with
      | some size => .finite (if minus then -size else size)
      | none => .infinite minus

def longInt : Json → Bool
  | .int n => maxDigits < (Nat.toDigits 10 n.natAbs).length
  | _ => false

-- ---------------------------------------------------------------------------
-- Look-ups
-- ---------------------------------------------------------------------------

def keyed (keys : List String) (d : Entries) : Option Json :=
  keys.findSome? fun key =>
    match Dict.get? d key with
    | some .null => none
    | value => value

def firstFound (look : Json → Except Raised (Option Json)) : List Json →
    Except Raised (Option Json)
  | [] => .ok none
  | x :: xs => do
    match ← look x with
    | some value => .ok (some value)
    | none => firstFound look xs

def lookupRecursive (keys : List String) : Nat → Json → Except Raised (Option Json)
  | 0, _ => .error .recursion
  | room + 1, .dict d =>
    match keyed keys d with
    | some value => .ok (some value)
    | none => firstFound (lookupRecursive keys room) (d.map Prod.snd)
  | room + 1, .list xs => firstFound (lookupRecursive keys room) xs
  | _ + 1, _ => .ok none

def lookupDictRecursive (keys : List String) (room : Nat) (value : Json) :
    Except Raised Entries := do
  return asDict ((← lookupRecursive keys room value).getD .null)

/-- `data if isinstance(data, (dict, list)) else other`. -/
def container (data other : Json) : Json :=
  match data with
  | .dict _ | .list _ => data
  | _ => other

def collect {α : Type} (read : String × List String → Except Raised (Option α)) :
    List (String × List String) → Except Raised (List (String × α))
  | [] => .ok []
  | field :: fields => do
    let value ← read field
    let output ← collect read fields
    match value with
    | some value => .ok ((field.1, value) :: output)
    | none => .ok output

def isWan (d : Entries) : Bool :=
  fastWanIntFields.any fun field => field.2.any fun key => (Dict.get? d key).isSome

def wansOf (wanStat : Entries) : Json :=
  container (get wanStat "wans") (container (get wanStat "wan") (.dict wanStat))

/-- The value for a field of the sample, from the aggregate or else from the frame. -/
def wanField (room : Nat) (root : Json) (aggregate : Entries) (field : String × List String) :
    Except Raised (Option Json) := do
  let value ← match Dict.get? aggregate field.1 with
    | some value => .ok (some value)
    | none => lookupRecursive field.2 (room + 2) (.dict aggregate)
  match value with
  | some value => .ok (some value)
  | none => lookupRecursive field.2 (room + 2) root

def messagePayload (message : Entries) : Json := container (get message "data") (.dict message)

-- ---------------------------------------------------------------------------
-- The frame as a text
-- ---------------------------------------------------------------------------

def dumpsChar (c : Char) : String :=
  if c = '"' ∨ c = '\\' then String.ofList ['\\', c]
  else if c = '\n' then "\\n"
  else if c = '\r' then "\\r"
  else if c = '\t' then "\\t"
  else if c.toNat = 8 then "\\b"
  else if c.toNat = 12 then "\\f"
  else if c.toNat < 32 then "\\u" ++ hexDigits 4 c.toNat
  else String.ofList [c]

def dumpsStr (s : String) : String := "\"" ++ String.join (s.toList.map dumpsChar) ++ "\""

def dumpsFloat (text : String) : String :=
  if text = "nan" then "NaN"
  else if text = "inf" then "Infinity"
  else if text = "-inf" then "-Infinity"
  else text

mutual
def dumps : Json → String
  | .null => "null"
  | .bool b => if b then "true" else "false"
  | .int n => toString n
  | .float _ text => dumpsFloat text
  | .str s => dumpsStr s
  | .list xs => "[" ++ dumpsList xs ++ "]"
  | .dict d => "\x7b" ++ dumpsEntries d ++ "\x7d"
def dumpsList : List Json → String
  | [] => ""
  | [x] => dumps x
  | x :: xs => dumps x ++ ", " ++ dumpsList xs
def dumpsEntries : List (String × Json) → String
  | [] => ""
  | [(k, v)] => dumpsStr k ++ ": " ++ dumps v
  | (k, v) :: d => dumpsStr k ++ ": " ++ dumps v ++ ", " ++ dumpsEntries d
end

def loginWords : List String := ["auth", "login", "session", "sid"]

def refusalWords : List String := ["invalid", "expired", "unauthorized", "forbidden"]

-- ---------------------------------------------------------------------------
-- What is kept
-- ---------------------------------------------------------------------------

/-- A value of the sample. -/
inductive Reading where
  | int (n : Int)
  | number (d : Double)

/-- What the receiver keeps. -/
structure Monitor where
  messages : List (String × Entries)
  fastSample : List (String × Reading)
  lowFrequency : List Entries

def Monitor.storeFast (s : Monitor) (message : Entries) (sample : List (String × Reading)) :
    Monitor :=
  { s with
    messages := Dict.set s.messages "fast" message
    fastSample := Dict.update s.fastSample sample }

/-- The frame in the queue, which holds 32: the oldest leaves a full one. -/
def Monitor.putLowFrequency (s : Monitor) (message : Entries) : Monitor :=
  if s.lowFrequency.length < 32 then { s with lowFrequency := s.lowFrequency ++ [message] }
  else { s with lowFrequency := s.lowFrequency.tail ++ [message] }

-- ---------------------------------------------------------------------------
-- A fast frame
-- ---------------------------------------------------------------------------

section
variable [Unicode]

/-- `_number`; `none` is `_MISSING`. `str` raises on an integer of more than 4300
digits. -/
def number (value : Option Json) : Option Double :=
  value.bind fun value =>
    if longInt value then none else parseDouble (rstripChar '%' (strip value.toStr))

def integer (value : Option Json) : Except Raised (Option Int) :=
  match number value with
  | none => .ok none
  | some (.finite q) => .ok (some (max 0 (truncate q)))
  | some (.infinite _) => .error .overflow
  | some .nan => .error .notANumber

def rowTotal (room : Nat) (keys : List String) : Option Int → List Entries →
    Except Raised (Option Int)
  | total, [] => .ok total
  | total, row :: rows => do
    match ← integer (← lookupRecursive keys room (.dict row)) with
    | some n => rowTotal room keys (some (total.getD 0 + n)) rows
    | none => rowTotal room keys total rows

def sumWanRows (room : Nat) (rows : List Entries) : Except Raised Entries := do
  let totals ← collect (fun field => rowTotal room field.2 none rows) fastWanIntFields
  return totals.map fun e => (e.1, .int e.2)

def aggregateWan (room : Nat) : Json → Except Raised Entries
  | .dict d =>
    if isWan d then .ok d
    else
      let rows := d.filterMap fun e => e.2.dict?
      if rows.isEmpty then .ok d else sumWanRows room rows
  | .list xs => sumWanRows room (xs.filterMap dict?)
  | _ => .ok []

def normalizeFastMessage (room : Nat) (message : Entries) :
    Except Raised (List (String × Reading)) := do
  let root := messagePayload message
  let wanStat ← lookupDictRecursive ["wan_stat", "wanStat", "wanStatus"] (room + 1) root
  let aggregate ← aggregateWan room (wansOf wanStat)
  let wan ← collect (fun field => do integer (← wanField room root aggregate field))
    fastWanIntFields
  let counts ← collect (fun field => do integer (← lookupRecursive field.2 (room + 2) root))
    fastRootIntFields
  let numbers ← collect (fun field => do
    return number (← lookupRecursive field.2 (room + 2) root)) fastRootNumberFields
  return (wan ++ counts).map (fun e => (e.1, .int e.2)) ++ numbers.map fun e => (e.1, .number e.2)

-- ---------------------------------------------------------------------------
-- The receiver
-- ---------------------------------------------------------------------------

def messageType (message : Entries) : String :=
  Unicode.lower (strip (((get message "type").or (get message "msgType")).or (.str "")).toStr)

def messageStatus (message : Entries) : String :=
  strip (((((get message "status").or (get message "code")).or (get message "rcode")).or
    (get message "errCode")).or (.str "")).toStr

def mentions (words : List String) (message : Entries) : Bool :=
  words.any fun word => contains word.toList (Unicode.lower (dumps (.dict message))).toList

def isAuthInvalid (message : Entries) : Bool :=
  ["401", "403"].contains (messageStatus message) ||
    (mentions loginWords message && mentions refusalWords message)

/-- `_dispatch_message`. What the handler of a sample raises is caught. -/
def dispatchMessage (room : Nat) (s : Monitor) (message : Entries) : Except Raised Monitor :=
  if messageType message = "" then .ok s
  else if isAuthInvalid message then .error .authExpired
  else if messageType message = "fast" then do
    let sample ← normalizeFastMessage room message
    return s.storeFast message sample
  else .ok (s.putLowFrequency message)

end

end LabProbe.Router
