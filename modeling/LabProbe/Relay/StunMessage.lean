import Mathlib.Logic.Function.Iterate
import Mathlib.Tactic.SplitIfs
import LabProbe.Lib.Bytes

/-!
# STUN binding responses

A response is a header of twenty bytes and a body of attributes, each padded to
a multiple of four bytes. `parse_stun_mapped_address` returns the first mapped
IPv4 address. The loop runs while an attribute starts inside the declared body,
but the end of an attribute is compared with the end of the datagram: one that
starts inside the body and ends behind it is read as well.
-/

namespace LabProbe.Relay.Stun

open Bytes

/-- Why there is no address: a text, or a read behind the end of the slice. -/
inductive Halt where
  | bail (text : String)
  | outOfBounds
  deriving DecidableEq

structure SocketAddrV4 where
  a : UInt8
  b : UInt8
  c : UInt8
  d : UInt8
  port : UInt16
  deriving DecidableEq

def stunMagicCookie : UInt32 := 0x2112A442

/-- An address crossed with the bytes of the cookie, and the port with its upper
half. -/
def SocketAddrV4.xored (s : SocketAddrV4) : SocketAddrV4 where
  a := s.a ^^^ (stunMagicCookie >>> 24).toUInt8
  b := s.b ^^^ (stunMagicCookie >>> 16).toUInt8
  c := s.c ^^^ (stunMagicCookie >>> 8).toUInt8
  d := s.d ^^^ stunMagicCookie.toUInt8
  port := s.port ^^^ (stunMagicCookie >>> 16).toUInt16

/-- `(len + 3) & !3`. -/
def padded (len : Nat) : Nat := (len + 3) / 4 * 4

theorem le_padded (len : Nat) : len ≤ padded len := by
  unfold padded
  omega

-- ---------------------------------------------------------------------------
-- Parsing
-- ---------------------------------------------------------------------------

def readAddress (m : List UInt8) (kind : UInt16) (value : Nat) : Except Halt SocketAddrV4 := do
  let port ← readWord .outOfBounds m (value + 2)
  let a ← read .outOfBounds m (value + 4)
  let b ← read .outOfBounds m (value + 5)
  let c ← read .outOfBounds m (value + 6)
  let d ← read .outOfBounds m (value + 7)
  return if kind = 0x0020 then SocketAddrV4.xored ⟨a, b, c, d, port⟩ else ⟨a, b, c, d, port⟩

/-- The family byte is only read if the attribute is of a kind with an address
and long enough. -/
def isMapped (m : List UInt8) (kind : UInt16) (len value : Nat) : Except Halt Bool :=
  if (kind = 0x0001 ∨ kind = 0x0020) ∧ 8 ≤ len then do
    let family ← read .outOfBounds m (value + 1)
    return family == 0x01
  else
    return false

def attributes (m : List UInt8) (bodyLen offset : Nat) : Except Halt SocketAddrV4 :=
  if offset + 4 ≤ 20 + bodyLen then do
    let kind ← readWord .outOfBounds m offset
    let len ← readWord .outOfBounds m (offset + 2)
    if m.length < offset + 4 + len.toNat then .error (.bail "truncated STUN attribute")
    else if ← isMapped m kind len.toNat (offset + 4) then readAddress m kind (offset + 4)
    else attributes m bodyLen (offset + 4 + padded len.toNat)
  else
    .error (.bail "STUN response has no IPv4 mapped address")
termination_by 20 + bodyLen - offset
decreasing_by omega

def parseStunMappedAddress (m : List UInt8) : Except Halt SocketAddrV4 :=
  if m.length < 20 then .error (.bail "invalid STUN binding response")
  else do
    let kind ← readWord .outOfBounds m 0
    let cookie ← readDword .outOfBounds m 4
    if kind ≠ 0x0101 ∨ cookie ≠ stunMagicCookie then
      .error (.bail "invalid STUN binding response")
    else
      let bodyLen ← readWord .outOfBounds m 2
      if m.length < 20 + bodyLen.toNat then .error (.bail "truncated STUN binding response")
      else attributes m bodyLen.toNat 20

-- ---------------------------------------------------------------------------
-- An attribute of a message
-- ---------------------------------------------------------------------------

section

variable {m : List UInt8} {bodyLen offset : Nat} {mapped : SocketAddrV4}

def attrKind (m : List UInt8) (offset : Nat) : UInt16 := wordAt m offset

def attrLen (m : List UInt8) (offset : Nat) : Nat := (wordAt m (offset + 2)).toNat

def attrEnd (m : List UInt8) (offset : Nat) : Nat := offset + 4 + attrLen m offset

def nextAttr (m : List UInt8) (offset : Nat) : Nat := offset + 4 + padded (attrLen m offset)

def IsMapped (m : List UInt8) (offset : Nat) : Prop :=
  (attrKind m offset = 0x0001 ∨ attrKind m offset = 0x0020) ∧ 8 ≤ attrLen m offset ∧
    byte m (offset + 5) = 0x01

instance : Decidable (IsMapped m offset) := inferInstanceAs (Decidable (_ ∧ _ ∧ _))

def storedAddress (m : List UInt8) (offset : Nat) : SocketAddrV4 :=
  ⟨byte m (offset + 8), byte m (offset + 9), byte m (offset + 10), byte m (offset + 11),
    wordAt m (offset + 6)⟩

def mappedAddress (m : List UInt8) (offset : Nat) : SocketAddrV4 :=
  if attrKind m offset = 0x0020 then (storedAddress m offset).xored else storedAddress m offset

theorem attrEnd_le_nextAttr (m : List UInt8) (offset : Nat) : attrEnd m offset ≤ nextAttr m offset :=
  Nat.add_le_add_left (le_padded _) _

theorem isMapped_ok (h : attrEnd m offset ≤ m.length) :
    isMapped m (attrKind m offset) (attrLen m offset) (offset + 4) =
      .ok (decide (IsMapped m offset)) := by
  unfold isMapped
  by_cases hlong : (attrKind m offset = 0x0001 ∨ attrKind m offset = 0x0020) ∧ 8 ≤ attrLen m offset
  · have hread : offset + 4 + 1 < m.length := by
      have hlen := hlong.2
      unfold attrEnd at h
      omega
    have hmapped : IsMapped m offset ↔ byte m (offset + 4 + 1) = 0x01 :=
      ⟨fun h => h.2.2, fun h => ⟨hlong.1, hlong.2, h⟩⟩
    rw [if_pos hlong, read_ok hread, decide_eq_decide.mpr hmapped]
    rfl
  · have hmapped : ¬ IsMapped m offset := fun h => hlong ⟨h.1, h.2.1⟩
    rw [if_neg hlong, decide_eq_false hmapped]
    rfl

theorem readAddress_ok (h : attrEnd m offset ≤ m.length) (hlen : 8 ≤ attrLen m offset) :
    readAddress m (attrKind m offset) (offset + 4) = .ok (mappedAddress m offset) := by
  have hread : offset + 4 + 7 < m.length := by
    unfold attrEnd at h
    omega
  rw [readAddress, readWord_ok (by omega), read_ok (by omega), read_ok (by omega), read_ok (by omega),
    read_ok hread]
  rfl

theorem attributes_inside (hbody : 20 + bodyLen ≤ m.length) (h : offset + 4 ≤ 20 + bodyLen) :
    attributes m bodyLen offset =
      if m.length < attrEnd m offset then .error (.bail "truncated STUN attribute")
      else if IsMapped m offset then .ok (mappedAddress m offset)
      else attributes m bodyLen (nextAttr m offset) := by
  rw [attributes, if_pos h, readWord_ok (by omega), readWord_ok (by omega)]
  show (if m.length < attrEnd m offset then _ else _) = _
  by_cases hend : m.length < attrEnd m offset
  · rw [if_pos hend, if_pos hend]
  · have hle := Nat.le_of_not_lt hend
    have hfound := isMapped_ok hle
    rw [if_neg hend, if_neg hend]
    unfold attrKind attrLen at hfound
    rw [hfound]
    show (if decide (IsMapped m offset) = true then _ else _) = _
    by_cases hmapped : IsMapped m offset
    · rw [if_pos (decide_eq_true hmapped), if_pos hmapped]
      exact readAddress_ok hle hmapped.2.1
    · rw [if_neg (by simp [hmapped]), if_neg hmapped]
      rfl

theorem attributes_outside (h : 20 + bodyLen < offset + 4) :
    attributes m bodyLen offset = .error (.bail "STUN response has no IPv4 mapped address") := by
  rw [attributes, if_neg (Nat.not_le.mpr h)]

-- ---------------------------------------------------------------------------
-- The first mapped address
-- ---------------------------------------------------------------------------

/-- The attribute that many places behind an offset is the first one with an
address. -/
structure FirstMapped (m : List UInt8) (offset n : Nat) : Prop where
  mapped : IsMapped m ((nextAttr m)^[n] offset)
  before : ∀ k < n, ¬ IsMapped m ((nextAttr m)^[k] offset)

theorem lt_nextAttr (m : List UInt8) (offset : Nat) : offset < nextAttr m offset := by
  unfold nextAttr
  omega

theorem le_iterate (m : List UInt8) (offset n : Nat) : offset ≤ (nextAttr m)^[n] offset := by
  induction n generalizing offset with
  | zero => exact Nat.le_refl offset
  | succ n ih => exact Nat.le_trans (Nat.le_of_lt (lt_nextAttr m offset)) (ih (nextAttr m offset))

theorem FirstMapped.of_mapped (h : IsMapped m offset) : FirstMapped m offset 0 :=
  ⟨h, fun k hk => absurd hk k.not_lt_zero⟩

theorem FirstMapped.succ {n : Nat} (h : ¬ IsMapped m offset)
    (hn : FirstMapped m (nextAttr m offset) n) : FirstMapped m offset (n + 1) := by
  refine ⟨hn.mapped, fun k hk => ?_⟩
  cases k with
  | zero => exact h
  | succ k => exact hn.before k (Nat.lt_of_succ_lt_succ hk)

/-- The attribute starts inside the body and ends inside the datagram. -/
def Readable (m : List UInt8) (bodyLen offset : Nat) : Prop :=
  offset + 4 ≤ 20 + bodyLen ∧ attrEnd m offset ≤ m.length

theorem attributes_of_first {n : Nat} (hbody : 20 + bodyLen ≤ m.length)
    (h : FirstMapped m offset n) (hread : Readable m bodyLen ((nextAttr m)^[n] offset)) :
    attributes m bodyLen offset = .ok (mappedAddress m ((nextAttr m)^[n] offset)) := by
  induction n generalizing offset with
  | zero =>
    have hmapped : IsMapped m offset := h.mapped
    rw [Function.iterate_zero_apply] at hread ⊢
    rw [attributes_inside hbody hread.1, if_neg (Nat.not_lt.mpr hread.2), if_pos hmapped]
  | succ n ih =>
    have hle : nextAttr m offset ≤ (nextAttr m)^[n + 1] offset := le_iterate m (nextAttr m offset) n
    have hstart := lt_nextAttr m offset
    have hend := attrEnd_le_nextAttr m offset
    have hinside := hread.1
    have hother : ¬ IsMapped m offset := h.before 0 n.succ_pos
    rw [attributes_inside hbody (by omega), if_neg (by omega), if_neg hother]
    exact ih ⟨h.mapped, fun k hk => h.before (k + 1) (Nat.succ_lt_succ hk)⟩ hread

theorem first_of_attributes (hbody : 20 + bodyLen ≤ m.length)
    (h : attributes m bodyLen offset = .ok mapped) :
    ∃ n, FirstMapped m offset n ∧ Readable m bodyLen ((nextAttr m)^[n] offset) ∧
      mappedAddress m ((nextAttr m)^[n] offset) = mapped := by
  induction hk : 20 + bodyLen - offset using Nat.strongRecOn generalizing offset with
  | ind k ih =>
    by_cases hinside : offset + 4 ≤ 20 + bodyLen
    · rw [attributes_inside hbody hinside] at h
      split_ifs at h with hend hmapped
      · exact ⟨0, .of_mapped hmapped, ⟨hinside, Nat.le_of_not_lt hend⟩, Except.ok.inj h⟩
      · have hnext := lt_nextAttr m offset
        obtain ⟨n, hfirst, hread, haddress⟩ := ih _ (by omega) h rfl
        exact ⟨n + 1, .succ hmapped hfirst, hread, haddress⟩
    · rw [attributes_outside (Nat.lt_of_not_le hinside)] at h
      cases h

theorem attributes_bounded (hbody : 20 + bodyLen ≤ m.length) :
    attributes m bodyLen offset ≠ .error .outOfBounds := by
  induction hk : 20 + bodyLen - offset using Nat.strongRecOn generalizing offset with
  | ind k ih =>
    by_cases hinside : offset + 4 ≤ 20 + bodyLen
    · rw [attributes_inside hbody hinside]
      have hnext := lt_nextAttr m offset
      split_ifs
      · simp
      · simp
      · exact ih _ (by omega) rfl
    · rw [attributes_outside (Nat.lt_of_not_le hinside)]
      simp

-- ---------------------------------------------------------------------------
-- Messages
-- ---------------------------------------------------------------------------

def declaredLen (m : List UInt8) : Nat := (wordAt m 2).toNat

structure IsResponse (m : List UInt8) : Prop where
  header : 20 ≤ m.length
  kind : wordAt m 0 = 0x0101
  cookie : dwordAt m 4 = stunMagicCookie
  body : 20 + declaredLen m ≤ m.length

theorem parse_response (h : IsResponse m) :
    parseStunMappedAddress m = attributes m (declaredLen m) 20 := by
  have hheader := h.header
  have hbody : ¬ m.length < 20 + (wordAt m 2).toNat := Nat.not_lt.mpr h.body
  rw [parseStunMappedAddress, if_neg (Nat.not_lt.mpr hheader), readWord_ok (by omega),
    readDword_ok (by omega), readWord_ok (by omega)]
  show (if wordAt m 0 ≠ 0x0101 ∨ dwordAt m 4 ≠ stunMagicCookie then _ else
    if m.length < 20 + (wordAt m 2).toNat then _ else _) = _
  rw [if_neg (by simp [h.kind, h.cookie]), if_neg hbody]
  rfl

theorem parse_not_response (h : ¬ IsResponse m) :
    ∃ text, parseStunMappedAddress m = .error (.bail text) := by
  unfold parseStunMappedAddress
  by_cases hheader : m.length < 20
  · exact ⟨_, if_pos hheader⟩
  · rw [if_neg hheader, readWord_ok (by omega), readDword_ok (by omega), readWord_ok (by omega)]
    show ∃ text, (if wordAt m 0 ≠ 0x0101 ∨ dwordAt m 4 ≠ stunMagicCookie then _ else
      if m.length < 20 + (wordAt m 2).toNat then _ else _) = _
    split_ifs with hfields hbody
    · exact ⟨_, rfl⟩
    · exact ⟨_, rfl⟩
    · rw [not_or, not_not, not_not] at hfields
      exact absurd ⟨Nat.le_of_not_lt hheader, hfields.1, hfields.2, Nat.le_of_not_lt hbody⟩ h

theorem parse_bounded (m : List UInt8) : parseStunMappedAddress m ≠ .error .outOfBounds := by
  by_cases h : IsResponse m
  · rw [parse_response h]
    exact attributes_bounded h.body
  · obtain ⟨text, htext⟩ := parse_not_response h
    simp [htext]

theorem parse_ok (h : parseStunMappedAddress m = .ok mapped) :
    IsResponse m ∧ attributes m (declaredLen m) 20 = .ok mapped := by
  by_cases hresponse : IsResponse m
  · exact ⟨hresponse, (parse_response hresponse).symm.trans h⟩
  · obtain ⟨text, htext⟩ := parse_not_response hresponse
    rw [htext] at h
    cases h

end

-- ---------------------------------------------------------------------------
-- Encoding
-- ---------------------------------------------------------------------------

structure Attribute where
  kind : UInt16
  value : List UInt8
  padding : List UInt8
  short : value.length < UInt16.size
  fills : value.length + padding.length = padded value.length

def Attribute.toBytes (a : Attribute) : List UInt8 :=
  hiByte a.kind :: loByte a.kind :: hiByte (.ofNat a.value.length) :: loByte (.ofNat a.value.length) ::
    (a.value ++ a.padding)

def SocketAddrV4.toValue (s : SocketAddrV4) (reserved : UInt8) : List UInt8 :=
  [reserved, 0x01, hiByte s.port, loByte s.port, s.a, s.b, s.c, s.d]

def Attribute.ofAddress (xor : Bool) (reserved : UInt8) (s : SocketAddrV4) : Attribute where
  kind := if xor then 0x0020 else 0x0001
  value := SocketAddrV4.toValue (if xor then s.xored else s) reserved
  padding := []
  short := by simp [SocketAddrV4.toValue, UInt16.size]
  fills := by simp [SocketAddrV4.toValue, padded]

/-- A binding response with an address behind attributes of other kinds. -/
structure Response where
  transaction : Vector UInt8 12
  before : List Attribute
  xor : Bool
  reserved : UInt8
  address : SocketAddrV4
  after : List Attribute
  others : ∀ a ∈ before, a.kind ≠ 0x0001 ∧ a.kind ≠ 0x0020
  short : ((before ++ .ofAddress xor reserved address :: after).flatMap Attribute.toBytes).length <
    UInt16.size

def Response.body (r : Response) : List UInt8 :=
  (r.before ++ .ofAddress r.xor r.reserved r.address :: r.after).flatMap Attribute.toBytes

def Response.header (r : Response) : List UInt8 :=
  0x01 :: 0x01 :: hiByte (.ofNat r.body.length) :: loByte (.ofNat r.body.length) ::
    0x21 :: 0x12 :: 0xA4 :: 0x42 :: r.transaction.toList

def Response.toBytes (r : Response) : List UInt8 := r.header ++ r.body

theorem xored_xored (s : SocketAddrV4) : s.xored.xored = s := by
  simp only [SocketAddrV4.xored, UInt8.xor_assoc, UInt8.xor_self, UInt8.xor_zero, UInt16.xor_assoc,
    UInt16.xor_self, UInt16.xor_zero]

theorem length_attribute (a : Attribute) : a.toBytes.length = 4 + padded a.value.length := by
  rw [← a.fills, Attribute.toBytes]
  simp
  omega

section

variable {front rest : List UInt8} {a : Attribute} {bodyLen : Nat}

theorem attrKind_encoded : attrKind (front ++ (a.toBytes ++ rest)) front.length = a.kind := by
  rw [attrKind, ← Nat.add_zero front.length, wordAt_append_right]
  exact word_hiByte_loByte a.kind

theorem attrLen_encoded :
    attrLen (front ++ (a.toBytes ++ rest)) front.length = a.value.length := by
  have hword : wordAt (a.toBytes ++ rest) 2 = .ofNat a.value.length := word_hiByte_loByte _
  rw [attrLen, wordAt_append_right, hword, UInt16.toNat_ofNat_of_lt' a.short]

theorem nextAttr_encoded : nextAttr (front ++ (a.toBytes ++ rest)) front.length =
    (front ++ a.toBytes).length := by
  rw [nextAttr, attrLen_encoded, List.length_append, length_attribute, Nat.add_assoc]

theorem attrEnd_encoded_le : attrEnd (front ++ (a.toBytes ++ rest)) front.length ≤
    (front ++ (a.toBytes ++ rest)).length := by
  have hle := attrEnd_le_nextAttr (front ++ (a.toBytes ++ rest)) front.length
  rw [nextAttr_encoded] at hle
  refine Nat.le_trans hle ?_
  simp

theorem isMapped_ofAddress (xor : Bool) (reserved : UInt8) (s : SocketAddrV4) :
    IsMapped (front ++ ((Attribute.ofAddress xor reserved s).toBytes ++ rest)) front.length := by
  refine ⟨?_, ?_, ?_⟩
  · rw [attrKind_encoded]
    cases xor
    · exact .inl rfl
    · exact .inr rfl
  · rw [attrLen_encoded]
    exact Nat.le_refl 8
  · rw [byte_append_right]
    rfl

theorem mappedAddress_ofAddress (xor : Bool) (reserved : UInt8) (s : SocketAddrV4) :
    mappedAddress (front ++ ((Attribute.ofAddress xor reserved s).toBytes ++ rest)) front.length = s := by
  have hstored : storedAddress (front ++ ((Attribute.ofAddress xor reserved s).toBytes ++ rest))
      front.length = if xor then s.xored else s := by
    simp only [storedAddress, byte_append_right, wordAt_append_right]
    have hport : wordAt ((Attribute.ofAddress xor reserved s).toBytes ++ rest) 6 =
        (if xor then s.xored else s).port := word_hiByte_loByte _
    rw [hport]
    rfl
  rw [mappedAddress, hstored, attrKind_encoded]
  cases xor
  · rfl
  · exact xored_xored s

theorem attributes_encoded {before : List Attribute} {xor : Bool} {reserved : UInt8}
    {s : SocketAddrV4} (hothers : ∀ a ∈ before, a.kind ≠ 0x0001 ∧ a.kind ≠ 0x0020)
    (hinside : (front ++ (before ++ [Attribute.ofAddress xor reserved s]).flatMap Attribute.toBytes).length ≤
      20 + bodyLen)
    (hbody : 20 + bodyLen ≤ (front ++ ((before ++ [Attribute.ofAddress xor reserved s]).flatMap
      Attribute.toBytes ++ rest)).length) :
    attributes (front ++ ((before ++ [Attribute.ofAddress xor reserved s]).flatMap Attribute.toBytes ++ rest))
      bodyLen front.length = .ok s := by
  induction before generalizing front with
  | nil =>
    rw [List.nil_append, List.flatMap_singleton] at hinside hbody ⊢
    rw [List.length_append, length_attribute] at hinside
    rw [attributes_inside hbody (by omega), if_neg (Nat.not_lt.mpr attrEnd_encoded_le),
      if_pos (isMapped_ofAddress xor reserved s), mappedAddress_ofAddress]
  | cons a before ih =>
    have hother : ∀ rest, ¬ IsMapped (front ++ (a.toBytes ++ rest)) front.length := by
      intro rest hmapped
      have hkind := hmapped.1
      rw [attrKind_encoded] at hkind
      have ha := hothers a List.mem_cons_self
      exact hkind.elim ha.1 ha.2
    rw [List.cons_append, List.flatMap_cons, List.append_assoc] at hbody ⊢
    rw [List.cons_append, List.flatMap_cons] at hinside
    have hstart : front.length + 4 ≤ 20 + bodyLen := by
      rw [List.length_append, List.length_append, length_attribute] at hinside
      omega
    rw [attributes_inside hbody hstart, if_neg (Nat.not_lt.mpr attrEnd_encoded_le),
      if_neg (hother _), nextAttr_encoded]
    rw [← List.append_assoc] at hinside hbody ⊢
    exact ih (fun b hb => hothers b (List.mem_cons_of_mem a hb)) hinside hbody

end

theorem isResponse_toBytes (r : Response) (trailing : List UInt8) :
    IsResponse (r.toBytes ++ trailing) ∧ declaredLen (r.toBytes ++ trailing) = r.body.length := by
  have hlen : declaredLen (r.toBytes ++ trailing) = r.body.length := by
    have hword : wordAt (r.toBytes ++ trailing) 2 = .ofNat r.body.length := word_hiByte_loByte _
    have hshort : r.body.length < UInt16.size := r.short
    rw [declaredLen, hword, UInt16.toNat_ofNat_of_lt' hshort]
  have hlength : (r.toBytes ++ trailing).length = 20 + r.body.length + trailing.length := by
    simp [Response.toBytes, Response.header]
    omega
  have hkind : wordAt (r.toBytes ++ trailing) 0 = word 0x01 0x01 := rfl
  have hcookie : dwordAt (r.toBytes ++ trailing) 4 = dword (word 0x21 0x12) (word 0xA4 0x42) := rfl
  refine ⟨⟨by omega, hkind.trans (by decide), hcookie.trans (by decide), by omega⟩, hlen⟩

theorem parse_toBytes (r : Response) (trailing : List UInt8) :
    parseStunMappedAddress (r.toBytes ++ trailing) = .ok r.address := by
  obtain ⟨hresponse, hlen⟩ := isResponse_toBytes r trailing
  have hheader : r.header.length = 20 := by simp [Response.header]
  have hbody : r.body = (r.before ++ [Attribute.ofAddress r.xor r.reserved r.address]).flatMap
      Attribute.toBytes ++ r.after.flatMap Attribute.toBytes := by
    simp [Response.body]
  have hmessage : r.toBytes ++ trailing = r.header ++
      ((r.before ++ [Attribute.ofAddress r.xor r.reserved r.address]).flatMap Attribute.toBytes ++
        (r.after.flatMap Attribute.toBytes ++ trailing)) := by
    simp [Response.toBytes, hbody]
  have hend := hresponse.body
  rw [parse_response hresponse, hlen]
  rw [hlen] at hend
  rw [hmessage] at hend ⊢
  rw [← hheader] at hend ⊢
  refine attributes_encoded r.others ?_ ?_
  · rw [List.length_append, hheader, hbody, List.length_append]
    omega
  · rwa [hheader] at hend

-- ---------------------------------------------------------------------------
-- Attributes inside the body
-- ---------------------------------------------------------------------------

def attrStart (m : List UInt8) (n : Nat) : Nat := (nextAttr m)^[n] 20

/-- A response that was encoded is read as its address, nothing is read behind
the end, and an address returned is that of an attribute inside the body. -/
structure Faithful (m : List UInt8) : Prop where
  decodes : ∀ (r : Response) (trailing : List UInt8), m = r.toBytes ++ trailing →
    parseStunMappedAddress m = .ok r.address
  bounded : parseStunMappedAddress m ≠ .error .outOfBounds
  inside : ∀ mapped, parseStunMappedAddress m = .ok mapped → ∃ n, IsMapped m (attrStart m n) ∧
    mappedAddress m (attrStart m n) = mapped ∧ attrEnd m (attrStart m n) ≤ 20 + declaredLen m

/-- The first attribute with an address does not end between the end of the body
and the end of the datagram if it starts in the body. -/
def FirstInside (m : List UInt8) : Prop :=
  IsResponse m → ∀ n, FirstMapped m 20 n → Readable m (declaredLen m) (attrStart m n) →
    attrEnd m (attrStart m n) ≤ 20 + declaredLen m

theorem attrEnd_le_of_lt (m : List UInt8) {k n : Nat} (h : k < n) :
    attrEnd m (attrStart m k) ≤ attrStart m n := by
  obtain ⟨d, rfl⟩ := Nat.exists_eq_add_of_lt h
  have hstart : attrStart m (k + d + 1) = (nextAttr m)^[d] (nextAttr m (attrStart m k)) := by
    rw [attrStart, attrStart, show k + d + 1 = d + 1 + k by omega, Function.iterate_add_apply,
      Function.iterate_succ_apply]
  rw [hstart]
  exact Nat.le_trans (attrEnd_le_nextAttr m _) (le_iterate m _ d)

theorem faithful_iff (m : List UInt8) : Faithful m ↔ FirstInside m := by
  constructor
  · intro h hresponse n hfirst hread
    have hparse := parse_response hresponse
    rw [attributes_of_first hresponse.body hfirst hread] at hparse
    obtain ⟨k, hmapped, -, hend⟩ := h.inside _ hparse
    rcases Nat.lt_trichotomy n k with hlt | rfl | hlt
    · have hle := attrEnd_le_of_lt m hlt
      have hown : attrStart m k ≤ attrEnd m (attrStart m k) := by
        unfold attrEnd
        omega
      omega
    · exact hend
    · exact absurd hmapped (hfirst.before k hlt)
  · intro h
    refine ⟨?_, parse_bounded m, ?_⟩
    · rintro r trailing rfl
      exact parse_toBytes r trailing
    · intro mapped hparse
      obtain ⟨hresponse, hattributes⟩ := parse_ok hparse
      obtain ⟨n, hfirst, hread, haddress⟩ := first_of_attributes hresponse.body hattributes
      exact ⟨n, hfirst.mapped, haddress, h hresponse n hfirst hread⟩

/-- A response that declares a body of four bytes, with an address behind them. -/
def overrun : List UInt8 :=
  [0x01, 0x01, 0x00, 0x04, 0x21, 0x12, 0xA4, 0x42, 0, 0, 0, 0, 0, 0, 0, 0, 0, 0, 0, 0,
   0x00, 0x01, 0x00, 0x08, 0x00, 0x01, 0x04, 0xD2, 203, 0, 113, 9]

theorem not_faithful_overrun : ¬ Faithful overrun := by
  intro h
  have hresponse : IsResponse overrun := ⟨by decide, by decide, by decide, by decide⟩
  have hparse : parseStunMappedAddress overrun = .ok ⟨203, 0, 113, 9, 1234⟩ := by
    rw [parse_response hresponse, attributes_inside (by decide) (by decide), if_neg (by decide),
      if_pos (by decide)]
    exact congrArg Except.ok (by decide)
  obtain ⟨n, -, -, hend⟩ := h.inside _ hparse
  cases n with
  | zero => exact absurd hend (by decide)
  | succ n =>
    have hfirst : attrEnd overrun (attrStart overrun 0) ≤ attrStart overrun (n + 1) :=
      attrEnd_le_of_lt overrun n.succ_pos
    have hbehind : 20 + declaredLen overrun < attrEnd overrun (attrStart overrun 0) := by decide
    have hown : attrStart overrun (n + 1) ≤ attrEnd overrun (attrStart overrun (n + 1)) := by
      unfold attrEnd
      omega
    omega

end LabProbe.Relay.Stun
