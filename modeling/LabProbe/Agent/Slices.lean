import LabProbe.Agent.Devices

/-!
# Texts the agent can slice

A MAC address that has no colon and twelve bytes is split into pairs of bytes,
and a scrubbed error of more than 400 bytes is cut at byte 400. The agent goes
on if and only if no character is in the way, in any object of the devices.
-/

namespace LabProbe.Agent

open Py Py.Json Relay Utf8

variable {text : String} {object : Entries} {value : Json}

/-- No character goes over the end of a pair of bytes, where there are pairs. -/
def SplitsEven (text : String) : Prop :=
  (rawMac text).contains ':' = true ∨ (encode (rawMac text)).length ≠ 12 ∨
    ∀ i ∈ [2, 4, 6, 8, 10], isBoundary (encode (rawMac text)) i = true

/-- The MAC address of an object, if it has one, can be split. -/
def Splittable (object : Entries) : Prop := ∀ text, macText object = some text → SplitsEven text

mutual
/-- The objects of a value, at any depth. -/
def objects : Json → List Entries
  | .dict object => object :: objectsEntries object
  | .list items => objectsItems items
  | _ => []
def objectsItems : List Json → List Entries
  | [] => []
  | child :: items => objects child ++ objectsItems items
def objectsEntries : List (String × Json) → List Entries
  | [] => []
  | (_, child) :: object => objects child ++ objectsEntries object
end

/-- The scrubbed errors have at most 400 bytes, or a character begins at the
400th. -/
def CutsEven (errors : List String) : Prop :=
  ∀ message, sanitizeSensitive (" | ".intercalate errors) = some message →
    message.length ≤ 400 ∨ isBoundary message 400 = true

-- ---------------------------------------------------------------------------
-- MAC addresses
-- ---------------------------------------------------------------------------

theorem isSome_mapM {α β : Type} {f : α → Option β} {l : List α} :
    (l.mapM f).isSome ↔ ∀ a ∈ l, (f a).isSome := by
  induction l with
  | nil => simp
  | cons a l ih =>
    rw [List.mapM_cons, List.forall_mem_cons, ← ih]
    cases f a <;> cases l.mapM f <;> simp

theorem macOf_isSome : (macOf text).isSome ↔ SplitsEven text := by
  unfold macOf SplitsEven
  dsimp only
  generalize rawMac text = raw
  split
  · rename_i hwhole
    refine iff_of_true rfl ?_
    rcases hwhole with hcolon | hlen
    · exact .inl hcolon
    · exact .inr (.inl hlen)
  · rename_i hsplit
    obtain ⟨hcolon, hlen⟩ := not_or.mp hsplit
    rw [or_iff_right hcolon, or_iff_right hlen]
    rw [ne_eq, not_not] at hlen
    have hend : isBoundary (encode raw) 12 = true := hlen ▸ isBoundary_length
    have hpairs : ((List.range 6).mapM fun i => sliceChars raw (i * 2) (i * 2 + 2)).isSome ↔
        ∀ i ∈ [2, 4, 6, 8, 10], isBoundary (encode raw) i = true := by
      have hrange : List.range 6 = [0, 1, 2, 3, 4, 5] := rfl
      simp only [isSome_mapM, hrange, sliceChars_isSome, List.forall_mem_cons, hend]
      simp
      tauto
    rw [← hpairs]
    cases (List.range 6).mapM fun i => sliceChars raw (i * 2) (i * 2 + 2) <;> rfl

theorem deviceMac_isSome : (deviceMac object).isSome ↔ Splittable object := by
  unfold deviceMac Splittable normalizeMac
  cases h : macText object with
  | none => simp
  | some text =>
    simp only [Option.some.injEq, forall_eq', ← macOf_isSome]
    cases macOf text <;> rfl

theorem insertDevice_isSome {output : List (String × Json)} :
    (insertDevice object output).isSome ↔ Splittable object := by
  rw [← deviceMac_isSome, insertDevice]
  cases deviceMac object <;> rfl

mutual
theorem findDevices_isSome : (value : Json) → (output : List (String × Json)) →
    ((findDevices value output).isSome ↔ ∀ object ∈ objects value, Splittable object)
  | .dict object, output => by
    rw [findDevices, objects, List.forall_mem_cons]
    rw [← @insertDevice_isSome object output]
    cases h : insertDevice object output with
    | none => simp
    | some output' => simpa using findEntries_isSome object output'
  | .list items, output => by
    rw [findDevices, objects]
    exact findItems_isSome items output
  | .null, _ | .bool _, _ | .int _, _ | .float _ _, _ | .str _, _ => by simp [findDevices, objects]
theorem findItems_isSome : (items : List Json) → (output : List (String × Json)) →
    ((findItems items output).isSome ↔ ∀ object ∈ objectsItems items, Splittable object)
  | [], _ => by simp [findItems, objectsItems]
  | child :: items, output => by
    rw [findItems, objectsItems, List.forall_mem_append, ← findDevices_isSome child output]
    cases findDevices child output with
    | none => simp
    | some output' => simpa using findItems_isSome items output'
theorem findEntries_isSome : (object : List (String × Json)) → (output : List (String × Json)) →
    ((findEntries object output).isSome ↔ ∀ object' ∈ objectsEntries object, Splittable object')
  | [], _ => by simp [findEntries, objectsEntries]
  | (key, child) :: object, output => by
    rw [findEntries, objectsEntries, List.forall_mem_append, ← findDevices_isSome child output]
    cases findDevices child output with
    | none => simp
    | some output' => simpa using findEntries_isSome object output'
end

-- ---------------------------------------------------------------------------
-- Rows and errors
-- ---------------------------------------------------------------------------

theorem deviceRow_isSome {item : Json} :
    (deviceRow item).isSome ↔ ∀ object, item = .dict object → Splittable object := by
  unfold deviceRow Splittable normalizedMac
  cases item with
  | dict object =>
    simp only [Json.dict.injEq, forall_eq']
    cases h : macText object with
    | none => simp
    | some text =>
      simp only [Option.some.injEq, forall_eq', ← macOf_isSome]
      cases macOf text <;> rfl
  | _ => simp

theorem deviceRows_isSome (root : Json) :
    (deviceRows root).isSome ↔ ∀ object, .dict object ∈ deviceArray root → Splittable object := by
  have hmap : (deviceRows root).isSome ↔ ((deviceArray root).mapM deviceRow).isSome := by
    unfold deviceRows
    cases (deviceArray root).mapM deviceRow <;> rfl
  rw [hmap, isSome_mapM]
  simp only [deviceRow_isSome]
  exact ⟨fun h object hmem => h _ hmem object rfl, fun h item hmem object heq => h object (heq ▸ hmem)⟩

theorem applyErrors_isSome (errors : List String) (error : Option (List UInt8)) :
    (applyErrors errors error).isSome ↔ errors = [] ∨ CutsEven errors := by
  unfold applyErrors CutsEven
  cases errors with
  | nil => simp
  | cons e errors =>
    obtain ⟨covered, hsome, -⟩ := sanitizeSensitive_eq (" | ".intercalate (e :: errors))
    generalize Spans.blank marker covered _ = message at hsome
    simp only [hsome, List.isEmpty_cons, Bool.false_eq_true, if_false, reduceCtorEq, false_or,
      Option.some.injEq, forall_eq', Option.bind_eq_bind, Option.bind_some]
    split
    · rename_i hlong
      rw [or_iff_right (Nat.not_le.mpr hlong)]
      split <;> simp_all
    · rename_i hshort
      exact iff_of_true rfl (.inl (Nat.le_of_not_lt hshort))

/-- The agent reads a device payload and takes in errors without a panic, if and
only if no character is in the way of a slice. -/
theorem agent_returns_iff (payload root : Json) (output : List (String × Json))
    (errors : List String) (error : Option (List UInt8)) :
    ((findDevices payload output).isSome ↔ ∀ object ∈ objects payload, Splittable object) ∧
      ((deviceRows root).isSome ↔
        ∀ object, .dict object ∈ deviceArray root → Splittable object) ∧
      ((applyErrors errors error).isSome ↔ errors = [] ∨ CutsEven errors) :=
  ⟨findDevices_isSome payload output, deviceRows_isSome root, applyErrors_isSome errors error⟩

/-- Four characters of three bytes each are taken for a MAC address. -/
def foreignName : Json := .dict [("mac", .str "路由器一")]

def foreignError : String := String.ofList (List.replicate 134 '错')

theorem toList_foreignError : foreignError.toList = List.replicate 134 '错' := String.toList_ofList

theorem foreignError_high {b : UInt8} (hb : b ∈ encode foreignError.toList) : ¬ b < 128 := by
  have hhigh : ∀ b ∈ String.utf8EncodeChar '错', ¬ b < 128 := by decide +kernel
  simp only [toList_foreignError, encode, List.mem_flatMap] at hb
  obtain ⟨c, hc, hbc⟩ := hb
  obtain rfl := List.eq_of_mem_replicate hc
  exact hhigh b hbc

theorem length_encode_replicate (n : Nat) :
    (encode (List.replicate n '错')).length = 3 * n := by
  induction n with
  | zero => rfl
  | succ n ih =>
    have hchar : (String.utf8EncodeChar '错').length = 3 := rfl
    rw [List.replicate_succ, encode_cons, List.length_append, ih, hchar]
    omega

theorem encode_foreignError : encode foreignError.toList =
    encode (List.replicate 133 '错') ++ String.utf8EncodeChar '错' := by
  have hlast : List.replicate 134 '错' = List.replicate 133 '错' ++ ['错'] := List.replicate_succ'
  simp only [toList_foreignError, encode, hlast, List.flatMap_append, List.flatMap_singleton]

/-- The agent loop, the realtime lane and the detection panic. -/
theorem foreign_texts_panic : findDevices foreignName [] = none ∧
    deviceRows (.list [foreignName]) = none ∧ applyErrors [foreignError] none = none := by
  refine ⟨by decide, by decide, ?_⟩
  have hsame : sanitizeSensitive foreignError = some (encode foreignError.toList) :=
    sanitizeSensitive_of_no_ascii fun b hb => foreignError_high hb
  have hlen := length_encode_replicate 133
  have hcut : isBoundary (encode foreignError.toList) 400 = false := by
    have hbyte : (encode foreignError.toList)[400]? = (String.utf8EncodeChar '错')[1]? := by
      rw [encode_foreignError, List.getElem?_append_right (by omega)]
      exact congrArg _ (by omega)
    simp only [isBoundary, hbyte]
    decide
  have hlong : 400 < (encode foreignError.toList).length := by
    rw [encode_foreignError, List.length_append, hlen]
    decide
  rw [← Option.not_isSome_iff_eq_none, applyErrors_isSome]
  rintro (hnil | hcuts)
  · cases hnil
  · rcases hcuts _ hsame with hshort | hboundary
    · exact Nat.not_le.mpr hlong hshort
    · rw [hcut] at hboundary
      cases hboundary

end LabProbe.Agent
