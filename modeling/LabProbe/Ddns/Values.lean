import LabProbe.Py.IpAddress
import LabProbe.Py.Json

/-!
# Values of the DDNS module

The readers of `lab_ddns.py` for values of unknown type, and the providers
with the record types they support.
-/

namespace LabProbe.Ddns

open Py Py.Json

-- ---------------------------------------------------------------------------
-- Types and families
-- ---------------------------------------------------------------------------

inductive RecordType where
  | a | aaaa | cname | txt
  deriving DecidableEq, Repr

def RecordType.name : RecordType → String
  | .a => "A"
  | .aaaa => "AAAA"
  | .cname => "CNAME"
  | .txt => "TXT"

def recordTypes : List RecordType := [.a, .aaaa, .cname, .txt]

def RecordType.ofName (name : String) : Option RecordType :=
  recordTypes.find? fun t => t.name == name

inductive Family where
  | ipv4 | ipv6
  deriving DecidableEq, Repr

def families : List Family := [.ipv4, .ipv6]

theorem mem_families (f : Family) : f ∈ families := by cases f <;> decide

def Family.type : Family → RecordType
  | .ipv4 => .a
  | .ipv6 => .aaaa

def Family.version : Family → Nat
  | .ipv4 => 4
  | .ipv6 => 6

/-- A field the source has twice, as `…Ipv4` and `…Ipv6`. -/
structure PerFamily (α : Type) where
  ipv4 : α
  ipv6 : α
  deriving DecidableEq

def PerFamily.get (p : PerFamily α) : Family → α
  | .ipv4 => p.ipv4
  | .ipv6 => p.ipv6

def PerFamily.set (p : PerFamily α) : Family → α → PerFamily α
  | .ipv4, x => { p with ipv4 := x }
  | .ipv6, x => { p with ipv6 := x }

def PerFamily.of (f : Family → α) : PerFamily α := ⟨f .ipv4, f .ipv6⟩

@[simp] theorem PerFamily.get_of (f : Family → α) (family : Family) :
    (PerFamily.of f).get family = f family := by cases family <;> rfl

@[simp] theorem PerFamily.get_set (p : PerFamily α) (family other : Family) (x : α) :
    (p.set family x).get other = if family = other then x else p.get other := by
  cases family <;> cases other <;> rfl

structure PerType (α : Type) where
  a : α
  aaaa : α
  cname : α
  txt : α
  deriving DecidableEq

def PerType.get (p : PerType α) : RecordType → α
  | .a => p.a
  | .aaaa => p.aaaa
  | .cname => p.cname
  | .txt => p.txt

def PerType.set (p : PerType α) : RecordType → α → PerType α
  | .a, x => { p with a := x }
  | .aaaa, x => { p with aaaa := x }
  | .cname, x => { p with cname := x }
  | .txt, x => { p with txt := x }

def PerType.of (f : RecordType → α) : PerType α := ⟨f .a, f .aaaa, f .cname, f .txt⟩

@[simp] theorem PerType.get_of (f : RecordType → α) (t : RecordType) :
    (PerType.of f).get t = f t := by cases t <;> rfl

@[simp] theorem PerType.get_set (p : PerType α) (t other : RecordType) (x : α) :
    (p.set t x).get other = if t = other then x else p.get other := by
  cases t <;> cases other <;> rfl

-- ---------------------------------------------------------------------------
-- Providers
-- ---------------------------------------------------------------------------

inductive Provider where
  | alidns | dnspod | cloudflare | dynv6 | duckdns | desec | dynu | ipv64
  deriving DecidableEq, Repr

/-- `provider_id`. -/
def Provider.id : Provider → String
  | .alidns => "alidns"
  | .dnspod => "dnspod"
  | .cloudflare => "cloudflare"
  | .dynv6 => "dynv6"
  | .duckdns => "duckdns"
  | .desec => "desec"
  | .dynu => "dynu"
  | .ipv64 => "ipv64"

def providers : List Provider :=
  [.alidns, .dnspod, .cloudflare, .dynv6, .duckdns, .desec, .dynu, .ipv64]

def Provider.ofId (id : String) : Option Provider := providers.find? fun p => p.id == id

/-- `supports_record_type`. -/
def Provider.supports : Provider → RecordType → Bool
  | _, .a | _, .aaaa => true
  | .alidns, _ | .dnspod, _ | .cloudflare, _ => true
  | .duckdns, .txt => true
  | _, _ => false

structure ProviderResult where
  ok : Bool
  provider : String := ""
  recordId : String := ""
  changed : Bool := false
  error : String := ""
  errorCode : String := ""
  errorMessage : String := ""

-- ---------------------------------------------------------------------------
-- Readers
-- ---------------------------------------------------------------------------

def intOf : Json → Option Int
  | .bool b => some (if b then 1 else 0)
  | .int n => some n
  | .float v _ => some (v.num.tdiv v.den)
  | .str s => parseInt s
  | _ => none

def safeInt (value : Json) (default : Nat) : Nat := ((intOf value).map Int.toNat).getD default

def optionalInt (value : Json) : Option Nat :=
  let parsed := safeInt value 0
  if parsed = 0 then none else some parsed

section
variable [Unicode]

def text (value : Json) : String := strip (value.or (.str "")).toStr

/-- `_text(value) or None`. -/
def optionalText (value : String) : Option String := if value = "" then none else some value

def ipText (value : Json) (version : Nat) : String :=
  let s := text value
  match ipAddress s with
  | some address => if address.version = version then s else ""
  | none => ""

/-- `_bool`. -/
def boolOf (value : Json) (default : Bool) : Bool :=
  match value with
  | .bool b => b
  | .str s =>
    let lowered := Unicode.lower (strip s)
    if ["false", "0", "no", "off"].contains lowered then false
    else if ["true", "1", "yes", "on"].contains lowered then true
    else default
  | _ => default

def domainValue (value : String) : String := rstripChar '.' (strip value)

def validCname (value hostname : String) : Bool :=
  let target := Unicode.lower (domainValue value)
  let owner := Unicode.lower (domainValue hostname)
  let validLabel := fun label : List Char =>
    match label.head?, label.getLast? with
    | some first, some last =>
      label.length ≤ 63 && Unicode.isAlnum first && Unicode.isAlnum last &&
        label.all fun c => Unicode.isAlnum c || c == '-'
    | _, _ => false
  let labels := splitOn '.' target.toList
  !(target.isEmpty || owner.isEmpty || target == owner ||
      contains "://".toList target.toList || target.toList.contains '/' ||
      target.toList.any isSpace) &&
    2 ≤ labels.length && labels.all validLabel

-- ---------------------------------------------------------------------------
-- Texts that were read are trimmed
-- ---------------------------------------------------------------------------

theorem text_str (s : String) : text (.str s) = strip s := by
  unfold text Json.or
  split
  · rfl
  · rename_i h
    obtain rfl : s = "" := by simpa [truthy] using h
    rfl

theorem strip_text (value : Json) : strip (text value) = text value := strip_strip _

theorem ipText_eq (value : Json) (version : Nat) :
    ipText value version = "" ∨ ipText value version = text value := by
  unfold ipText
  dsimp only
  split
  · split
    · exact .inr rfl
    · exact .inl rfl
  · exact .inl rfl

theorem strip_ipText (value : Json) (version : Nat) :
    strip (ipText value version) = ipText value version := by
  rcases ipText_eq value version with h | h <;> rw [h]
  · exact strip_empty
  · exact strip_text value

omit [Unicode] in
theorem optionalText_getD (value : String) : (optionalText value).getD "" = value := by
  unfold optionalText
  split
  · rename_i h
    exact h.symm
  · rfl

theorem ofId_id (p : Provider) : Provider.ofId (Unicode.lower (text (.str p.id))) = some p := by
  have hstrip : strip p.id = p.id := by cases p <;> decide
  have hascii : p.id.toList.all fun c => c.toNat < 128 := by cases p <;> decide
  have hlower : asciiLower p.id = p.id := by cases p <;> decide
  rw [text_str, hstrip, Unicode.lower_ascii _ hascii, hlower]
  cases p <;> decide

def redactError (value : String) (credentials : List (String × String)) : String :=
  takeChars 240 <| credentials.foldl (fun error entry =>
    let secret := strip entry.2
    if 3 ≤ secret.length then
      String.ofList (replaceAll secret.toList "[REDACTED]".toList 0 error.toList)
    else error) (strip value)

end

end LabProbe.Ddns
