import Mathlib.Data.List.Basic

/-!
# Texts as their bytes

A text is stored as the UTF-8 bytes of its characters. A program that slices
it by byte offsets stops where an offset is inside a character. A byte below
128 is a whole character, so the offsets before and behind it are never
inside one.
-/

namespace Utf8

variable {l : List UInt8} {b : UInt8} {c : Char} {cs : List Char} {i j n : Nat}

def encode (cs : List Char) : List UInt8 := cs.flatMap String.utf8EncodeChar

@[simp]
theorem encode_nil : encode [] = [] := rfl

@[simp]
theorem encode_cons : encode (c :: cs) = String.utf8EncodeChar c ++ encode cs := rfl

def isBoundary (l : List UInt8) (i : Nat) : Bool :=
  i = 0 || match l[i]? with
    | some b => b < 128 || 192 ≤ b
    | none => i = l.length

/-- The bytes between two offsets; none where the program stops. -/
def slice (l : List UInt8) (i j : Nat) : Option (List UInt8) :=
  if i ≤ j ∧ isBoundary l i ∧ isBoundary l j then some ((l.take j).drop i) else none

theorem slice_eq (hij : i ≤ j) (hi : isBoundary l i) (hj : isBoundary l j) :
    slice l i j = some ((l.take j).drop i) :=
  if_pos ⟨hij, hi, hj⟩

theorem slice_middle {before k after : List UInt8} (hl : l = before ++ (k ++ after))
    (hi : isBoundary l before.length) (hj : isBoundary l (before.length + k.length)) :
    slice l before.length (before.length + k.length) = some k := by
  rw [slice_eq (Nat.le_add_right _ _) hi hj, hl, ← List.append_assoc, List.take_left' (by simp),
    List.drop_left]

@[simp]
theorem isBoundary_zero : isBoundary l 0 = true := rfl

@[simp]
theorem isBoundary_length : isBoundary l l.length = true := by
  simp [isBoundary]

theorem isBoundary_of_ascii (h : l[i]? = some b) (hb : b < 128) : isBoundary l i = true := by
  simp [isBoundary, h, hb]

-- ---------------------------------------------------------------------------
-- Characters
-- ---------------------------------------------------------------------------

theorem eq_singleton_of_ascii (h : b ∈ String.utf8EncodeChar c) (hb : b < 128) :
    String.utf8EncodeChar c = [b] := by
  rw [UInt8.lt_iff_toNat_lt] at hb
  unfold String.utf8EncodeChar at h ⊢
  dsimp only at h ⊢
  split at h
  · rename_i hv
    rw [if_pos hv]
    rw [List.mem_singleton] at h
    rw [h]
  · -- the bytes of a longer character are 128 or more
    exfalso
    split at h
    · simp only [List.mem_cons, List.not_mem_nil, or_false] at h
      rcases h with rfl | rfl <;> simp at hb <;> omega
    · split at h
      · simp only [List.mem_cons, List.not_mem_nil, or_false] at h
        rcases h with rfl | rfl | rfl <;> simp at hb <;> omega
      · simp only [List.mem_cons, List.not_mem_nil, or_false] at h
        rcases h with rfl | rfl | rfl | rfl <;> simp at hb <;> omega

theorem exists_first (c : Char) :
    ∃ b bs, String.utf8EncodeChar c = b :: bs ∧ (b < 128 || 192 ≤ b) = true := by
  simp only [Bool.or_eq_true, decide_eq_true_eq, UInt8.lt_iff_toNat_lt, UInt8.le_iff_toNat_le]
  unfold String.utf8EncodeChar
  dsimp only
  split
  · rename_i hv
    refine ⟨_, _, rfl, .inl ?_⟩
    rw [UInt8.toNat_ofNat', Nat.mod_eq_of_lt (by omega)]
    exact Nat.lt_succ_of_le hv
  · split
    · exact ⟨_, _, rfl, .inr (by simp; omega)⟩
    · split
      · exact ⟨_, _, rfl, .inr (by simp; omega)⟩
      · exact ⟨_, _, rfl, .inr (by simp; omega)⟩

theorem isBoundary_append (before : List UInt8) (cs : List Char) :
    isBoundary (before ++ encode cs) before.length = true := by
  cases cs with
  | nil => simp
  | cons c cs =>
    obtain ⟨b, bs, hc, hb⟩ := exists_first c
    simp [isBoundary, hc, hb]

theorem isBoundary_append_right (before : List UInt8) (h : isBoundary l i = true) (hi : i ≠ 0) :
    isBoundary (before ++ l) (before.length + i) = true := by
  simp only [isBoundary, hi, decide_false, Bool.false_or] at h
  simp only [isBoundary, List.getElem?_append_right (Nat.le_add_right _ _),
    Nat.add_sub_cancel_left, List.length_append, Nat.add_left_cancel_iff, h, Bool.or_true]

/-- Behind a byte below 128 the next character begins. -/
theorem isBoundary_succ (h : (encode cs)[i]? = some b) (hb : b < 128) :
    isBoundary (encode cs) (i + 1) = true := by
  induction cs generalizing i with
  | nil => simp at h
  | cons c cs ih =>
    rw [encode_cons] at h ⊢
    by_cases hi : i < (String.utf8EncodeChar c).length
    · rw [List.getElem?_append_left hi] at h
      have hc := eq_singleton_of_ascii (List.mem_of_getElem? h) hb
      obtain rfl : i = 0 := by simpa [hc] using hi
      rw [hc]
      exact isBoundary_append [b] cs
    · rw [Nat.not_lt] at hi
      rw [List.getElem?_append_right hi] at h
      have hnext := isBoundary_append_right (String.utf8EncodeChar c) (ih h) (Nat.succ_ne_zero _)
      rwa [← Nat.add_assoc, Nat.add_sub_cancel' hi] at hnext

def takeBytes : Nat → List Char → List Char
  | 0, _ | _, [] => []
  | n + 1, c :: cs => c :: takeBytes (n + 1 - c.utf8Size) cs

def dropBytes : Nat → List Char → List Char
  | 0, cs => cs
  | _, [] => []
  | n + 1, c :: cs => dropBytes (n + 1 - c.utf8Size) cs

def sliceChars (cs : List Char) (i j : Nat) : Option (List Char) :=
  if i ≤ j ∧ isBoundary (encode cs) i ∧ isBoundary (encode cs) j then
    some (takeBytes (j - i) (dropBytes i cs))
  else none

theorem sliceChars_isSome : (sliceChars cs i j).isSome ↔
    i ≤ j ∧ isBoundary (encode cs) i = true ∧ isBoundary (encode cs) j = true := by
  unfold sliceChars
  split <;> simp_all

-- ---------------------------------------------------------------------------
-- Searching
-- ---------------------------------------------------------------------------

def find (pat : List UInt8) : List UInt8 → Option Nat
  | [] => if pat.isEmpty then some 0 else none
  | b :: l => if pat.isPrefixOf (b :: l) then some 0 else (find pat l).map (· + 1)

variable {pat : List UInt8}

theorem find_some (h : find pat l = some i) :
    pat <+: l.drop i ∧ ∀ j < i, ¬ pat <+: l.drop j := by
  induction l generalizing i with
  | nil =>
    unfold find at h
    split at h
    · rename_i hpat
      cases h
      simp_all
    · cases h
  | cons b l ih =>
    unfold find at h
    split at h
    · rename_i hpat
      cases h
      exact ⟨List.isPrefixOf_iff_prefix.mp hpat, nofun⟩
    · rename_i hpat
      obtain ⟨n, hn, rfl⟩ := Option.map_eq_some_iff.mp h
      obtain ⟨hat, hbefore⟩ := ih hn
      refine ⟨hat, fun j hj => ?_⟩
      cases j with
      | zero => exact fun hprefix => hpat (List.isPrefixOf_iff_prefix.mpr hprefix)
      | succ j => exact hbefore j (Nat.lt_of_succ_lt_succ hj)

theorem find_none (hpat : pat ≠ []) (h : find pat l = none) (i : Nat) : ¬ pat <+: l.drop i := by
  induction l generalizing i with
  | nil => simpa using hpat
  | cons b l ih =>
    unfold find at h
    split at h
    · cases h
    · rename_i hprefix
      cases i with
      | zero => exact fun hp => hprefix (List.isPrefixOf_iff_prefix.mpr hp)
      | succ i => exact ih (Option.map_eq_none_iff.mp h) i

end Utf8
