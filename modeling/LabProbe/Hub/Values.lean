import LabProbe.Lib.Check
import LabProbe.Py.Float
import LabProbe.Py.IpText
import LabProbe.Py.Json

/-!
# Values from requests and documents

The readers that the Hub's modules use on values of unknown type, and the
checks that raise a `ValueError` with a message.
-/

namespace LabProbe.Hub

open Py Py.Json

variable [Unicode]

def cleanSavedValue (v : Json) : String :=
  let text := match v with
    | .null => ""
    | v => strip v.toStr
  if ["", "null", "none", "nan"].contains (Unicode.lower text) || text == "-" then "" else text

def toInt (v : Json) (default : Int) : Int := (parseInt v.toStr).getD default

/-- `_text` of the services. -/
def text (v : Json) : String := strip (v.or (.str "")).toStr

omit [Unicode] in
def intOf (default : Int) : Json → Int
  | .bool b => if b then 1 else 0
  | .int n => n
  | .float v _ => truncate v
  | .str s => (parseInt s).getD default
  | _ => default

def normMac (mac : Json) : String :=
  if !mac.truthy then "" else
  let dashed := replaceAll ['-'] [':'] 0 (Unicode.lower mac.toStr).toList
  let m := strip (String.ofList (replaceAll ['.'] [] 0 dashed))
  if !m.toList.contains ':' && m.length == 12 then
    String.ofList (joinWith ':' ((List.range 6).map fun i => (m.toList.drop (2 * i)).take 2))
  else m

/-- An integer reads as itself, unless its text has too many digits. -/
theorem toInt_int {n : Int} (hn : n.natAbs < 10 ^ maxDigits) (default : Int) :
    toInt (.int n) default = n := by
  have htext : toStr (.int n) = toString n := rfl
  rw [toInt, htext, parseInt_toString hn, Option.getD_some]

theorem toInt_int_cases (n default : Int) :
    toInt (.int n) default = n ∨ toInt (.int n) default = default := by
  by_cases hn : n.natAbs < 10 ^ maxDigits
  · exact .inl (toInt_int hn default)
  · have htext : toStr (.int n) = toString n := rfl
    right
    rw [toInt, htext, parseInt_toString_none (Nat.le_of_not_lt hn), Option.getD_none]

theorem text_str (s : String) : text (.str s) = strip s := by
  by_cases h : s = "" <;> simp [text, Json.or, truthy, toStr, h]

theorem strip_cleanSavedValue (v : Json) : strip (cleanSavedValue v) = cleanSavedValue v := by
  have hword : ∀ (p : Bool) (t : String), strip t = t →
      strip (if p then "" else t) = if p then "" else t := by
    intro p t ht
    cases p
    · exact ht
    · exact strip_empty
  cases v with
  | null => exact hword _ "" strip_empty
  | _ => exact hword _ _ (strip_strip _)

theorem strip_text (v : Json) : strip (text v) = text v := strip_strip _

theorem cleanSavedValue_word {s : String} (hascii : s.toList.all (fun c => c.toNat < 128))
    (hstrip : strip s = s)
    (hword : (["", "null", "none", "nan"].contains (asciiLower s) || s == "-") = false) :
    cleanSavedValue (.str s) = s := by
  have htext : strip (toStr (.str s)) = s := hstrip
  simp only [cleanSavedValue, htext, Unicode.lower_ascii s hascii, hword]
  rfl

-- ---------------------------------------------------------------------------
-- The body of a request
-- ---------------------------------------------------------------------------

omit [Unicode] in
/-- `type(value).__name__`. -/
def typeName : Json → String
  | .null => "NoneType"
  | .bool _ => "bool"
  | .int _ => "int"
  | .float _ _ => "float"
  | .str _ => "str"
  | .list _ => "list"
  | .dict _ => "dict"

omit [Unicode] in
/-- `request.get_json(silent=True) or {}` as a dictionary; `fault` is what
using another value as one raises. -/
def bodyOr (fault : Json → String) (body : Json) : Except String Entries :=
  match body.or (.dict []) with
  | .dict fields => .ok fields
  | value => .error (fault value)

omit [Unicode] in
theorem bodyOr_ok {fault : Json → String} {body : Json} {fields : Entries}
    (h : bodyOr fault body = .ok fields) : asDict body = fields := by
  unfold bodyOr Json.or at h
  by_cases ht : body.truthy
  · rw [if_pos ht] at h
    cases body <;> simp_all
  · rw [if_neg ht] at h
    cases body <;> simp_all [truthy, asDict, dict?]

omit [Unicode] in
/-- What `payload["id"] = rule_id` raises. -/
def assignFault : Json → String
  | .list _ => "list indices must be integers or slices, not str"
  | value => "'" ++ typeName value ++ "' object does not support item assignment"

-- ---------------------------------------------------------------------------
-- Checks
-- ---------------------------------------------------------------------------

def ipAddressOf (s : String) : Except String IpAddress :=
  match ipAddress s with
  | some address => .ok address
  | none => .error (Json.reprStr s ++ " does not appear to be an IPv4 or IPv6 address")

omit [Unicode] in
/-- `ip.version == 4 and (ip.is_private or ip.is_loopback or ip.is_link_local)`. -/
def isLanIpv4 : IpAddress → Bool
  | .v4 value =>
    isPrivate4 value || (IpAddress.v4 value).isLoopback || (IpAddress.v4 value).isLinkLocal
  | .v6 _ => false

theorem ipAddressOf_eq_ok {s : String} : ipAddressOf s = .ok a ↔ ipAddress s = some a := by
  unfold ipAddressOf
  cases ipAddress s <;> simp

end LabProbe.Hub
