import LabProbe.Py.IpText
import LabProbe.Py.Json
import Mathlib.Data.List.Sort

/-!
# The broadband credentials in an answer of the router

`_extract_router_credentials` of `router_relay_credentials_patch.py`: an answer
is decoded where it holds JSON as text, its objects are ranked, and the first
that has a user name and a password gives both. Where none has both, the two are
taken from wherever they are.
-/

namespace LabProbe.Router.Credentials

open Py Json

-- ---------------------------------------------------------------------------
-- Decoding
-- ---------------------------------------------------------------------------

mutual
def weight : Json → Nat
  | .str s => s.length + 1
  | .list xs => weightList xs + 1
  | .dict d => weightEntries d + 1
  | _ => 1
def weightList : List Json → Nat
  | [] => 0
  | x :: xs => weight x + weightList xs
def weightEntries : List (String × Json) → Nat
  | [] => 0
  | (_, v) :: d => weight v + weightEntries d
end

/-- `json.loads`, with nothing where it raises. What is read out of a text is no
larger than the text. -/
structure Decoder where
  loads : String → Option Json
  weight_le : ∀ {s v}, loads s = some v → weight v ≤ s.length

section
variable [Unicode]

def normalizedKey (key : String) : String :=
  String.ofList ((Unicode.lower key).toList.filter fun c =>
    ('a' ≤ c && c ≤ 'z') || ('0' ≤ c && c ≤ '9'))

def wrapperKeys : List String := ["data", "code", "id", "error", "rcode", "message", "msg"]

def isWrapper (d : Entries) : Bool :=
  (Dict.get? d "data").isSome && (Dict.keys d).all fun key => wrapperKeys.contains (normalizedKey key)

def decodeRounds (decoder : Decoder) : Nat → Json → Json
  | 0, current => current
  | rounds + 1, .str s =>
    let text := strip s
    if text.toList.head? = some '{' ∨ text.toList.head? = some '[' then
      match decoder.loads text with
      | some value => decodeRounds decoder rounds value
      | none => .str s
    else .str s
  | rounds + 1, .dict d =>
    if isWrapper d then decodeRounds decoder rounds (Json.get d "data") else .dict d
  | _, current => current

def decodePayload (decoder : Decoder) (value : Json) : Json := decodeRounds decoder 6 value

-- ---------------------------------------------------------------------------
-- The values of an object
-- ---------------------------------------------------------------------------

def usernameKeys : List String :=
  ["username", "user", "account", "pppoeuser", "pppoeusername", "pppoeaccount", "broadbandaccount",
   "broadbanduser"]

def passwordKeys : List String :=
  ["password", "passwd", "pwd", "pppoepassword", "pppoepasswd", "broadbandpassword"]

def macKeys : List String := ["mac", "macaddr", "macaddress", "hwaddr", "lanmac"]

omit [Unicode] in
def isMasked (text : String) : Bool :=
  let compact := text.toList.filter fun c => !isSpace c
  !compact.isEmpty && compact.all fun c => ['*', 'x', 'X', '•', '·', '.'].contains c

def cleanValue (secret : Bool) : Json → String
  | .dict _ => ""
  | .list _ => ""
  | .null => ""
  | value =>
    let text := strip value.toStr
    if text = "" ∨ ["none", "null", "undefined", "--"].contains (Unicode.lower text) then ""
    else if secret && isMasked text then ""
    else text

def firstClean (names : List String) (secret : Bool) : List (String × Json) → String
  | [] => ""
  | (key, child) :: row =>
    if names.contains (normalizedKey key) ∧ cleanValue secret child ≠ "" then cleanValue secret child
    else firstClean names secret row

def isMac (text : String) : Bool :=
  let parts := splitOn ':' text.toList
  parts.length == 6 && parts.all fun part => part.length == 2 && part.all fun c =>
    ('0' ≤ c && c ≤ '9') || ('a' ≤ c && c ≤ 'f')

def macText (child : Json) : String :=
  String.ofList (replaceAll ['-'] [':'] 0 (Unicode.lower (cleanValue false child)).toList)

def firstMac : List (String × Json) → String
  | [] => ""
  | (key, child) :: row =>
    if macKeys.contains (normalizedKey key) && isMac (macText child) then macText child
    else firstMac row

def candidateScore (row : Entries) : Nat :=
  let marker := (joinWith ' ' (["name", "ifname", "interface", "type", "role", "proto", "protocol",
    "mode"].map fun key => (Unicode.lower (cleanValue false (Json.get row key))).toList))
  let normalized := (Dict.keys row).map normalizedKey
  (if contains "pppoe".toList marker then 8 else 0) + (if contains "wan".toList marker then 5 else 0) +
    (if normalized.any usernameKeys.contains then 3 else 0) +
    (if normalized.any passwordKeys.contains then 3 else 0)

-- ---------------------------------------------------------------------------
-- Extraction
-- ---------------------------------------------------------------------------

def collect (decoder : Decoder) : Nat → Json → List Entries
  | 0, _ => []
  | room + 1, node => match decodePayload decoder node with
    | .dict d => d :: d.flatMap fun e => collect decoder room e.2
    | .list xs => xs.flatMap (collect decoder room)
    | _ => []

def walk (decoder : Decoder) : Nat → Json → List (String × Json)
  | 0, _ => []
  | room + 1, node => match decodePayload decoder node with
    | .dict d => d.flatMap fun e => e :: walk decoder room e.2
    | .list xs => xs.flatMap (walk decoder room)
    | _ => []

structure Found where
  username : String := ""
  password : String := ""
  lanMac : String := ""
  deriving DecidableEq

structure Scan extends Found where
  pairSelected : Bool := false

def scanRow (s : Scan) (row : Entries) : Scan :=
  let localUser := firstClean usernameKeys false row
  let localPassword := firstClean passwordKeys true row
  let lanMac := if s.lanMac = "" then firstMac row else s.lanMac
  if s.pairSelected then { s with lanMac }
  else if localUser ≠ "" ∧ localPassword ≠ "" then
    { username := localUser, password := localPassword, lanMac, pairSelected := true }
  else
    { s with
      username := if s.username = "" then localUser else s.username
      password := if s.password = "" then localPassword else s.password
      lanMac }

def fill (username password : String) : List (String × Json) → String × String
  | [] => (username, password)
  | (key, child) :: rest =>
    let filled :=
      if username = "" ∧ usernameKeys.contains (normalizedKey key) then
        (cleanValue false child, password)
      else if password = "" ∧ passwordKeys.contains (normalizedKey key) then
        (username, cleanValue true child)
      else (username, password)
    if filled.1 ≠ "" ∧ filled.2 ≠ "" then filled else fill filled.1 filled.2 rest

def ranked (rows : List Entries) : List Entries :=
  rows.insertionSort fun a b => candidateScore b ≤ candidateScore a

def extractRouterCredentials (decoder : Decoder) (value : Json) : Found :=
  let root := decodePayload decoder value
  let s := (ranked (collect decoder (weight root) root)).foldl scanRow {}
  if s.username = "" ∨ s.password = "" then
    let filled := fill s.username s.password (walk decoder (weight root) root)
    { s.toFound with username := filled.1, password := filled.2 }
  else s.toFound

-- ---------------------------------------------------------------------------
-- The objects of an answer
-- ---------------------------------------------------------------------------

inductive ObjectOf (decoder : Decoder) : Json → Entries → Prop
  | self {node d} (h : decodePayload decoder node = .dict d) : ObjectOf decoder node d
  | inDict {node d key child row} (h : decodePayload decoder node = .dict d)
      (hmem : (key, child) ∈ d) (hrow : ObjectOf decoder child row) : ObjectOf decoder node row
  | inList {node xs child row} (h : decodePayload decoder node = .list xs) (hmem : child ∈ xs)
      (hrow : ObjectOf decoder child row) : ObjectOf decoder node row

variable {decoder : Decoder} {node value child : Json} {d row : Entries} {key : String}
  {room : Nat}

omit [Unicode] in
theorem weight_list_mem {xs : List Json} (h : child ∈ xs) : weight child < weight (.list xs) := by
  rw [weight]
  induction xs with
  | nil => cases h
  | cons x xs ih =>
    rw [weightList]
    rcases List.mem_cons.mp h with rfl | h
    · omega
    · have := ih h
      omega

omit [Unicode] in
theorem weight_dict_mem (h : (key, child) ∈ d) : weight child < weight (.dict d) := by
  rw [weight]
  induction d with
  | nil => cases h
  | cons e d ih =>
    obtain ⟨first, value⟩ := e
    rw [weightEntries]
    rcases List.mem_cons.mp h with h | h
    · cases h
      omega
    · have := ih h
      omega

omit [Unicode] in
theorem length_strip_le (s : String) : (strip s).length ≤ s.length := by
  rw [strip, ← String.length_toList, String.toList_ofList, ← @String.length_toList s]
  exact (List.rdropWhile_prefix _ _).length_le.trans (List.dropWhile_suffix _).length_le

theorem weight_decodeRounds (decoder : Decoder) (rounds : Nat) (value : Json) :
    weight (decodeRounds decoder rounds value) ≤ weight value := by
  induction rounds generalizing value with
  | zero => exact le_rfl
  | succ rounds ih =>
    cases value with
    | str s =>
      rw [decodeRounds]
      split
      · split
        · rename_i value hloads
          have hread := decoder.weight_le hloads
          have hstrip := length_strip_le s
          have hrest := ih value
          rw [weight]
          omega
        · exact le_rfl
      · exact le_rfl
    | dict d =>
      rw [decodeRounds]
      split
      · rename_i hwrapper
        obtain ⟨data, hdata⟩ := Option.isSome_iff_exists.mp (Bool.and_eq_true _ _ ▸ hwrapper).1
        have hmem := weight_dict_mem (Dict.mem_of_get? hdata)
        rw [Json.get, hdata]
        exact (ih data).trans hmem.le
      · exact le_rfl
    | _ => exact le_rfl

theorem weight_decodePayload (decoder : Decoder) (value : Json) :
    weight (decodePayload decoder value) ≤ weight value := weight_decodeRounds decoder 6 value

omit [Unicode] in
theorem weight_pos (value : Json) : 0 < weight value := by
  cases value <;> simp [weight]

theorem mem_collect (hroom : weight node ≤ room) :
    row ∈ collect decoder room node ↔ ObjectOf decoder node row := by
  induction room generalizing node with
  | zero => exact absurd hroom (Nat.not_le_of_lt (weight_pos node))
  | succ room ih =>
    have hdecode := weight_decodePayload decoder node
    rw [collect]
    cases hnode : decodePayload decoder node with
    | dict d =>
      rw [hnode] at hdecode
      simp only [List.mem_cons, List.mem_flatMap]
      constructor
      · rintro (rfl | ⟨⟨key, child⟩, hmem, hrow⟩)
        · exact .self hnode
        · have hchild := weight_dict_mem hmem
          exact .inDict hnode hmem ((ih (by omega)).mp hrow)
      · rintro (hself | ⟨hdict, hmem, hrow⟩ | ⟨hlist, -, -⟩)
        · rw [hnode, Json.dict.injEq] at hself
          exact .inl hself.symm
        · rw [hnode, Json.dict.injEq] at hdict
          subst hdict
          have hchild := weight_dict_mem hmem
          exact .inr ⟨_, hmem, (ih (Nat.le_of_lt_succ (hchild.trans_le (hdecode.trans hroom)))).mpr
            hrow⟩
        · rw [hnode] at hlist
          cases hlist
    | list xs =>
      rw [hnode] at hdecode
      simp only [List.mem_flatMap]
      constructor
      · rintro ⟨child, hmem, hrow⟩
        have hchild := weight_list_mem hmem
        exact .inList hnode hmem ((ih (by omega)).mp hrow)
      · rintro (hself | ⟨hdict, -, -⟩ | ⟨hlist, hmem, hrow⟩)
        · rw [hnode] at hself
          cases hself
        · rw [hnode] at hdict
          cases hdict
        · rw [hnode, Json.list.injEq] at hlist
          subst hlist
          have hchild := weight_list_mem hmem
          exact ⟨_, hmem, (ih (by omega)).mpr hrow⟩
    | _ =>
      simp only [List.not_mem_nil, false_iff]
      rintro (hself | ⟨hdict, -, -⟩ | ⟨hlist, -, -⟩) <;> simp_all

theorem mem_walk (h : (key, child) ∈ walk decoder room node) :
    ∃ row, ObjectOf decoder node row ∧ (key, child) ∈ row := by
  induction room generalizing node with
  | zero => cases h
  | succ room ih =>
    rw [walk] at h
    cases hnode : decodePayload decoder node with
    | dict d =>
      simp only [hnode, List.mem_flatMap, List.mem_cons] at h
      obtain ⟨e, hmem, rfl | h⟩ := h
      · exact ⟨d, .self hnode, hmem⟩
      · obtain ⟨row, hrow, hentry⟩ := ih h
        exact ⟨row, .inDict hnode hmem hrow, hentry⟩
    | list xs =>
      simp only [hnode, List.mem_flatMap] at h
      obtain ⟨x, hmem, h⟩ := h
      obtain ⟨row, hrow, hentry⟩ := ih h
      exact ⟨row, .inList hnode hmem hrow, hentry⟩
    | _ => simp [hnode] at h

-- ---------------------------------------------------------------------------
-- What an object holds
-- ---------------------------------------------------------------------------

def Holds (names : List String) (secret : Bool) (row : Entries) (text : String) : Prop :=
  text ≠ "" ∧ ∃ key child, (key, child) ∈ row ∧ names.contains (normalizedKey key) = true ∧
    cleanValue secret child = text

def HoldsUser (row : Entries) (text : String) : Prop := Holds usernameKeys false row text

def HoldsPassword (row : Entries) (text : String) : Prop := Holds passwordKeys true row text

/-- An object with a user name and a password that is not masked. -/
def Complete (row : Entries) : Prop := (∃ text, HoldsUser row text) ∧ ∃ text, HoldsPassword row text

variable {names : List String} {secret : Bool} {text : String} {rows : List Entries} {s : Scan}

theorem holds_firstClean (h : firstClean names secret row ≠ "") :
    Holds names secret row (firstClean names secret row) := by
  induction row with
  | nil => exact absurd rfl h
  | cons e row ih =>
    obtain ⟨key, child⟩ := e
    rw [firstClean] at h ⊢
    split
    · rename_i hfirst
      exact ⟨hfirst.2, key, child, List.mem_cons_self, hfirst.1, rfl⟩
    · rename_i hfirst
      rw [if_neg hfirst] at h
      obtain ⟨hne, k, c, hmem, hrest⟩ := ih h
      exact ⟨hne, k, c, List.mem_cons_of_mem _ hmem, hrest⟩

theorem firstClean_eq_empty :
    firstClean names secret row = "" ↔ ∀ text, ¬Holds names secret row text := by
  constructor
  · rintro hempty text ⟨hne, key, child, hmem, hname, rfl⟩
    induction row with
    | nil => cases hmem
    | cons e row ih =>
      rw [firstClean] at hempty
      split at hempty
      · rename_i hfirst
        exact hfirst.2 hempty
      · rename_i hfirst
        rcases List.mem_cons.mp hmem with rfl | hmem
        · exact hfirst ⟨hname, hne⟩
        · exact ih hempty hmem
  · intro hnone
    by_contra hne
    exact hnone _ (holds_firstClean hne)

theorem firstClean_ne_empty :
    firstClean names secret row ≠ "" ↔ ∃ text, Holds names secret row text := by
  rw [ne_eq, firstClean_eq_empty, not_forall_not]

theorem complete_iff : Complete row ↔
    firstClean usernameKeys false row ≠ "" ∧ firstClean passwordKeys true row ≠ "" :=
  and_congr firstClean_ne_empty.symm firstClean_ne_empty.symm

omit [Unicode] in
theorem isMasked_empty : isMasked "" = false := by decide

theorem isMasked_cleanValue (child : Json) : isMasked (cleanValue true child) = false := by
  have htext : ∀ text : String,
      isMasked (if text = "" ∨ ["none", "null", "undefined", "--"].contains (Unicode.lower text)
        then "" else if true && isMasked text then "" else text) = false := by
    intro text
    split
    · exact isMasked_empty
    · split
      · exact isMasked_empty
      · rename_i hmasked
        simpa using hmasked
  cases child with
  | dict | list | null => exact isMasked_empty
  | _ => exact htext _

theorem Holds.not_masked (h : Holds names true row text) : isMasked text = false := by
  obtain ⟨-, -, child, -, -, rfl⟩ := h
  exact isMasked_cleanValue child

-- ---------------------------------------------------------------------------
-- The scan
-- ---------------------------------------------------------------------------

theorem foldl_scanRow_selected (h : s.pairSelected = true) :
    (rows.foldl scanRow s).username = s.username ∧ (rows.foldl scanRow s).password = s.password := by
  induction rows generalizing s with
  | nil => exact ⟨rfl, rfl⟩
  | cons row rows ih =>
    have hrow : scanRow s row = { s with lanMac := (scanRow s row).lanMac } := by
      simp [scanRow, h]
    rw [List.foldl_cons, hrow]
    exact ih h

theorem foldl_scanRow_incomplete (hrows : ∀ row ∈ rows, ¬Complete row)
    (h : s.pairSelected = false) :
    (rows.foldl scanRow s).pairSelected = false ∧
    ((rows.foldl scanRow s).username = "" ↔
      s.username = "" ∧ ∀ row ∈ rows, firstClean usernameKeys false row = "") ∧
    ((rows.foldl scanRow s).password = "" ↔
      s.password = "" ∧ ∀ row ∈ rows, firstClean passwordKeys true row = "") := by
  induction rows generalizing s with
  | nil => simp [h]
  | cons row rows ih =>
    obtain ⟨hrow, hrows⟩ := List.forall_mem_cons.mp hrows
    rw [complete_iff] at hrow
    have hscan : (scanRow s row).pairSelected = false ∧
        (scanRow s row).username =
          (if s.username = "" then firstClean usernameKeys false row else s.username) ∧
        (scanRow s row).password =
          (if s.password = "" then firstClean passwordKeys true row else s.password) := by
      simp [scanRow, h, hrow]
    obtain ⟨hselected, husername, hpassword⟩ := hscan
    obtain ⟨hend, hu, hp⟩ := ih hrows hselected
    refine ⟨hend, ?_, ?_⟩
    · rw [List.foldl_cons, hu, husername, List.forall_mem_cons, ← and_assoc]
      refine and_congr_left' ?_
      split <;> simp_all
    · rw [List.foldl_cons, hp, hpassword, List.forall_mem_cons, ← and_assoc]
      refine and_congr_left' ?_
      split <;> simp_all

theorem foldl_scanRow_complete {before after : List Entries} (hbefore : ∀ row ∈ before, ¬Complete row)
    (hrow : Complete row) (h : s.pairSelected = false) :
    ((before ++ row :: after).foldl scanRow s).username = firstClean usernameKeys false row ∧
      ((before ++ row :: after).foldl scanRow s).password = firstClean passwordKeys true row := by
  rw [List.foldl_append, List.foldl_cons]
  obtain ⟨hselected, -, -⟩ := foldl_scanRow_incomplete hbefore h
  generalize before.foldl scanRow s = s' at hselected
  have hscan : (scanRow s' row).pairSelected = true ∧
      (scanRow s' row).username = firstClean usernameKeys false row ∧
      (scanRow s' row).password = firstClean passwordKeys true row := by
    simp [scanRow, hselected, complete_iff.mp hrow]
  obtain ⟨hpair, husername, hpassword⟩ := hscan
  rw [← husername, ← hpassword]
  exact foldl_scanRow_selected hpair

theorem fill_eq {username password : String} {entries : List (String × Json)}
    (husername : username = "" → ∀ e ∈ entries, usernameKeys.contains (normalizedKey e.1) = true →
      cleanValue false e.2 = "")
    (hpassword : password = "" → ∀ e ∈ entries, passwordKeys.contains (normalizedKey e.1) = true →
      cleanValue true e.2 = "") :
    fill username password entries = (username, password) := by
  induction entries with
  | nil => rfl
  | cons e entries ih =>
    obtain ⟨key, child⟩ := e
    rw [fill]
    have hfilled : (if username = "" ∧ usernameKeys.contains (normalizedKey key) = true then
          (cleanValue false child, password)
        else if password = "" ∧ passwordKeys.contains (normalizedKey key) = true then
          (username, cleanValue true child)
        else (username, password)) = (username, password) := by
      split
      · rename_i h
        rw [husername h.1 _ List.mem_cons_self h.2, h.1]
      · split
        · rename_i h
          rw [hpassword h.1 _ List.mem_cons_self h.2, h.1]
        · rfl
    simp only [hfilled]
    split
    · rfl
    · exact ih (fun h e he => husername h e (List.mem_cons_of_mem _ he))
        fun h e he => hpassword h e (List.mem_cons_of_mem _ he)

-- ---------------------------------------------------------------------------
-- The pair
-- ---------------------------------------------------------------------------

instance (row : Entries) : Decidable (Complete row) := decidable_of_iff _ complete_iff.symm

/-- An object of the answer to a request. -/
def InAnswer (decoder : Decoder) (value : Json) (row : Entries) : Prop :=
  ObjectOf decoder (decodePayload decoder value) row

/-- The user name and the password are those of one object, which no object with
a complete pair outranks. -/
def OfOneObject (decoder : Decoder) (value : Json) (found : Found) : Prop :=
  ∃ row, InAnswer decoder value row ∧ HoldsUser row found.username ∧
    HoldsPassword row found.password ∧
    ∀ other, InAnswer decoder value other → Complete other →
      candidateScore other ≤ candidateScore row

theorem mem_ranked : row ∈ ranked rows ↔ row ∈ rows := List.mem_insertionSort _

theorem ranked_sorted (rows : List Entries) :
    (ranked rows).Pairwise fun a b => candidateScore b ≤ candidateScore a := by
  have : Std.Total fun a b : Entries => candidateScore b ≤ candidateScore a :=
    ⟨fun a b => Nat.le_total (candidateScore b) (candidateScore a)⟩
  have : IsTrans Entries fun a b => candidateScore b ≤ candidateScore a :=
    ⟨fun a b c hab hbc => hbc.trans hab⟩
  exact List.pairwise_insertionSort _ rows

theorem mem_rows (decoder : Decoder) (value : Json) :
    row ∈ ranked (collect decoder (weight (decodePayload decoder value))
      (decodePayload decoder value)) ↔ InAnswer decoder value row :=
  mem_ranked.trans (mem_collect le_rfl)

theorem extract_complete (h : ∃ row, InAnswer decoder value row ∧ Complete row) :
    OfOneObject decoder value (extractRouterCredentials decoder value) := by
  obtain ⟨first, hfirst, hcomplete⟩ := h
  have hfind : ((ranked (collect decoder (weight (decodePayload decoder value))
      (decodePayload decoder value))).find? (Complete ·)).isSome = true :=
    List.find?_isSome.mpr ⟨first, (mem_rows decoder value).mpr hfirst, by simpa using hcomplete⟩
  obtain ⟨row, hrow⟩ := Option.isSome_iff_exists.mp hfind
  obtain ⟨hcomplete, before, after, hrows, hbefore⟩ := List.find?_eq_some_iff_append.mp hrow
  have hcomplete : Complete row := by simpa using hcomplete
  have hbefore : ∀ row ∈ before, ¬Complete row := by simpa using hbefore
  have hsorted := hrows ▸ ranked_sorted (collect decoder (weight (decodePayload decoder value))
    (decodePayload decoder value))
  have hmem : ∀ other, InAnswer decoder value other ↔ other ∈ before ++ row :: after :=
    fun other => hrows ▸ (mem_rows decoder value).symm
  obtain ⟨husername, hpassword⟩ :=
    @foldl_scanRow_complete _ row {} before after hbefore hcomplete rfl
  obtain ⟨hu, hp⟩ := complete_iff.mp hcomplete
  have hfound : extractRouterCredentials decoder value =
      ((before ++ row :: after).foldl scanRow {}).toFound := by
    rw [extractRouterCredentials]
    simp only [hrows, husername, hpassword, hu, hp, or_self, if_false]
  refine ⟨row, (hmem row).mpr (by simp), ?_, ?_, ?_⟩
  · rw [hfound, husername]
    exact holds_firstClean hu
  · rw [hfound, hpassword]
    exact holds_firstClean hp
  · intro other hother hcomplete'
    rcases List.mem_append.mp ((hmem other).mp hother) with hother | hother
    · exact absurd hcomplete' (hbefore other hother)
    · rcases List.mem_cons.mp hother with rfl | hother
      · exact le_rfl
      · exact (List.pairwise_cons.mp (List.pairwise_append.mp hsorted).2.1).1 other hother

theorem extract_incomplete (h : ∀ row, InAnswer decoder value row → ¬Complete row) :
    ((extractRouterCredentials decoder value).username = "" ↔
      ∀ row, InAnswer decoder value row → ∀ text, ¬HoldsUser row text) ∧
    ((extractRouterCredentials decoder value).password = "" ↔
      ∀ row, InAnswer decoder value row → ∀ text, ¬HoldsPassword row text) := by
  obtain ⟨-, husername, hpassword⟩ := @foldl_scanRow_incomplete _
    (ranked (collect decoder (weight (decodePayload decoder value)) (decodePayload decoder value)))
    {} (fun row hrow => h row ((mem_rows decoder value).mp hrow)) rfl
  simp only [true_and, mem_rows, firstClean_eq_empty] at husername hpassword
  have hwalk : ∀ room, ∀ e ∈ walk decoder room (decodePayload decoder value),
      ∃ row, InAnswer decoder value row ∧ e ∈ row := fun _ _ he => mem_walk he
  rw [extractRouterCredentials]
  dsimp only
  generalize (ranked (collect decoder (weight (decodePayload decoder value))
    (decodePayload decoder value))).foldl scanRow {} = s at husername hpassword
  split
  · rw [fill_eq]
    · exact ⟨husername, hpassword⟩
    · intro hempty e he hname
      obtain ⟨row, hrow, hmem⟩ := hwalk _ e he
      by_contra hne
      exact husername.mp hempty row hrow _ ⟨hne, e.1, e.2, hmem, hname, rfl⟩
    · intro hempty e he hname
      obtain ⟨row, hrow, hmem⟩ := hwalk _ e he
      by_contra hne
      exact hpassword.mp hempty row hrow _ ⟨hne, e.1, e.2, hmem, hname, rfl⟩
  · exact ⟨husername, hpassword⟩

theorem scanRow_not_masked (h : isMasked s.password = false) (row : Entries) :
    isMasked (scanRow s row).password = false := by
  have hfirst : isMasked (firstClean passwordKeys true row) = false := by
    by_cases hempty : firstClean passwordKeys true row = ""
    · rw [hempty]
      exact isMasked_empty
    · exact (holds_firstClean hempty).not_masked
  unfold scanRow
  dsimp only
  split
  · exact h
  · split
    · exact hfirst
    · dsimp only
      split
      · exact hfirst
      · exact h

theorem fill_not_masked {username password : String} (h : isMasked password = false)
    (entries : List (String × Json)) : isMasked (fill username password entries).2 = false := by
  induction entries generalizing username password with
  | nil => exact h
  | cons e entries ih =>
    obtain ⟨key, child⟩ := e
    have hclean := isMasked_cleanValue child
    simp only [fill]
    split_ifs
    · exact h
    · exact ih h
    · exact hclean
    · exact ih hclean
    · exact h
    · exact ih h

theorem extract_not_masked (decoder : Decoder) (value : Json) :
    isMasked (extractRouterCredentials decoder value).password = false := by
  have hscan : ∀ (rows : List Entries) (s : Scan), isMasked s.password = false →
      isMasked (rows.foldl scanRow s).password = false := by
    intro rows
    induction rows with
    | nil => exact fun _ h => h
    | cons row rows ih => exact fun s h => ih _ (scanRow_not_masked h row)
  rw [extractRouterCredentials]
  dsimp only
  split
  · exact fill_not_masked (hscan _ _ isMasked_empty) _
  · exact hscan _ _ isMasked_empty

/-- The pair that is found is of one object exactly where some object is complete,
or one of the two is nowhere in the answer. -/
theorem extract_pair_iff (decoder : Decoder) (value : Json) :
    (isMasked (extractRouterCredentials decoder value).password = false ∧
      ((extractRouterCredentials decoder value).username ≠ "" →
        (extractRouterCredentials decoder value).password ≠ "" →
        OfOneObject decoder value (extractRouterCredentials decoder value))) ↔
    (∃ row, InAnswer decoder value row ∧ Complete row) ∨
      (∀ row, InAnswer decoder value row → ∀ text, ¬HoldsUser row text) ∨
      (∀ row, InAnswer decoder value row → ∀ text, ¬HoldsPassword row text) := by
  rw [and_iff_right (extract_not_masked decoder value)]
  by_cases hcomplete : ∃ row, InAnswer decoder value row ∧ Complete row
  · exact iff_of_true (fun _ _ => extract_complete hcomplete) (.inl hcomplete)
  · have hnone : ∀ row, InAnswer decoder value row → ¬Complete row :=
      fun row hrow hc => hcomplete ⟨row, hrow, hc⟩
    obtain ⟨husername, hpassword⟩ := extract_incomplete hnone
    rw [← husername, ← hpassword]
    constructor
    · intro hpair
      by_contra! hboth
      obtain ⟨row, hrow, hu, hp, -⟩ := hpair hboth.2.1 hboth.2.2
      exact hnone row hrow ⟨⟨_, hu⟩, _, hp⟩
    · rintro (hc | hu | hp)
      · exact absurd hc hcomplete
      · exact fun h => absurd hu h
      · exact fun _ h => absurd hp h

end

section
local instance : Unicode := .ascii

/-- The decoder, for answers without JSON as text. -/
def plainDecoder : Decoder where
  loads _ := none
  weight_le h := by cases h

def splitAnswer : Json :=
  .list [.dict [("username", .str "guest")], .dict [("password", .str "secret")]]

/-- A user name and a password of two objects are given as a pair. -/
theorem extract_two_objects :
    extractRouterCredentials plainDecoder splitAnswer =
        { username := "guest", password := "secret" } ∧
      ¬OfOneObject plainDecoder splitAnswer (extractRouterCredentials plainDecoder splitAnswer) := by
  refine ⟨by decide +kernel, ?_⟩
  have hnone : ∀ row ∈ ranked (collect plainDecoder
      (weight (decodePayload plainDecoder splitAnswer))
      (decodePayload plainDecoder splitAnswer)), ¬Complete row := by
    decide +kernel
  rintro ⟨row, hrow, hu, hp, -⟩
  exact hnone row ((mem_rows plainDecoder splitAnswer).mpr hrow) ⟨⟨_, hu⟩, _, hp⟩

end

end LabProbe.Router.Credentials
