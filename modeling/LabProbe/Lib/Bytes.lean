import Mathlib.Data.List.GetD

/-!
# Bytes at offsets

A program that reads a buffer by offsets stops with an error when it reads
behind the end. Within the buffer it reads what stands there. Numbers of more
than one byte are stored with the high byte first.
-/

namespace Bytes

variable {ε : Type} {e : ε} {m before after : List UInt8} {i : Nat}

-- ---------------------------------------------------------------------------
-- Words
-- ---------------------------------------------------------------------------

def word (hi lo : UInt8) : UInt16 := UInt16.ofNat (hi.toNat * 256 + lo.toNat)

def hiByte (w : UInt16) : UInt8 := UInt8.ofNat (w.toNat / 256)

def loByte (w : UInt16) : UInt8 := UInt8.ofNat (w.toNat % 256)

def dword (hi lo : UInt16) : UInt32 := UInt32.ofNat (hi.toNat * 65536 + lo.toNat)

theorem toNat_word (hi lo : UInt8) : (word hi lo).toNat = hi.toNat * 256 + lo.toNat := by
  have hhi := hi.toNat_lt
  have hlo := lo.toNat_lt
  rw [word, UInt16.toNat_ofNat']
  omega

@[simp]
theorem word_hiByte_loByte (w : UInt16) : word (hiByte w) (loByte w) = w := by
  have hw := w.toNat_lt
  rw [← UInt16.toNat_inj, toNat_word, hiByte, loByte, UInt8.toNat_ofNat', UInt8.toNat_ofNat']
  omega

-- ---------------------------------------------------------------------------
-- Reading
-- ---------------------------------------------------------------------------

def byte (m : List UInt8) (i : Nat) : UInt8 := m.getD i 0

def wordAt (m : List UInt8) (i : Nat) : UInt16 := word (byte m i) (byte m (i + 1))

def dwordAt (m : List UInt8) (i : Nat) : UInt32 := dword (wordAt m i) (wordAt m (i + 2))

def read (e : ε) (m : List UInt8) (i : Nat) : Except ε UInt8 :=
  match m[i]? with
  | some b => .ok b
  | none => .error e

def readWord (e : ε) (m : List UInt8) (i : Nat) : Except ε UInt16 := do
  let hi ← read e m i
  let lo ← read e m (i + 1)
  return word hi lo

def readDword (e : ε) (m : List UInt8) (i : Nat) : Except ε UInt32 := do
  let hi ← readWord e m i
  let lo ← readWord e m (i + 2)
  return dword hi lo

theorem read_ok (h : i < m.length) : read e m i = .ok (byte m i) := by
  simp [read, byte, h]

theorem readWord_ok (h : i + 1 < m.length) : readWord e m i = .ok (wordAt m i) := by
  rw [readWord, read_ok (Nat.lt_of_succ_lt h), read_ok h]
  rfl

theorem readDword_ok (h : i + 3 < m.length) : readDword e m i = .ok (dwordAt m i) := by
  rw [readDword, readWord_ok (Nat.lt_of_succ_lt (Nat.lt_of_succ_lt h)), readWord_ok h]
  rfl

-- ---------------------------------------------------------------------------
-- Buffers put together
-- ---------------------------------------------------------------------------

@[simp]
theorem byte_cons_zero (b : UInt8) : byte (b :: m) 0 = b := rfl

@[simp]
theorem byte_cons_succ (b : UInt8) : byte (b :: m) (i + 1) = byte m i := by
  simp [byte]

@[simp]
theorem byte_append_right : byte (before ++ m) (before.length + i) = byte m i := by
  rw [byte, byte, List.getD_append_right _ _ _ _ (Nat.le_add_right _ _), Nat.add_sub_cancel_left]

theorem wordAt_append_right : wordAt (before ++ m) (before.length + i) = wordAt m i := by
  rw [wordAt, wordAt, byte_append_right, Nat.add_assoc, byte_append_right]

end Bytes
