import LabProbe.Py.Float
import Mathlib.Algebra.Order.Field.Power
import Mathlib.Data.Rat.Floor
import Mathlib.Tactic.Linarith
import Mathlib.Tactic.Positivity
import Mathlib.Tactic.NormNum
import Mathlib.Tactic.FieldSimp

/-!
# Numbers that a double holds

A double holds a number of at most 53 significant binary digits. Rounding
gives such a number, and leaves one as it is.
-/

namespace Py

def Exact (q : Rat) : Prop :=
  ∃ (digits : Nat) (exponent : Int), digits < 2 ^ 53 ∧ -1074 ≤ exponent ∧
    q = digits * 2 ^ exponent ∧ q < 2 ^ 1024

section
variable {q r : Rat}

theorem Exact.nonneg (h : Exact q) : 0 ≤ q := by
  obtain ⟨digits, exponent, -, -, rfl, -⟩ := h
  positivity

theorem exists_exponent (hq : 0 < q) : ∃ e : Int, (2 : Rat) ^ e ≤ q ∧ q < 2 ^ (e + 1) ∧
    toDouble q =
      if (roundHalfEven (q / 2 ^ max (e - 52) (-1074)) : Rat) * 2 ^ max (e - 52) (-1074) < 2 ^ 1024
      then some ((roundHalfEven (q / 2 ^ max (e - 52) (-1074)) : Rat) * 2 ^ max (e - 52) (-1074))
      else none := by
  have hnum : 0 < q.num := Rat.num_pos.mpr hq
  have hden : q.den ≠ 0 := q.den_nz
  obtain ⟨n, hn⟩ := Int.eq_ofNat_of_zero_le hnum.le
  have hn0 : n ≠ 0 := by omega
  have hvalue : q = n / q.den := by
    conv_lhs => rw [← Rat.num_div_den q, hn]
    simp
  have hnlow : (2 : Rat) ^ (n.log2 : Int) ≤ n := by
    rw [zpow_natCast]
    exact_mod_cast Nat.log2_self_le hn0
  have hnhigh : (n : Rat) < 2 ^ ((n.log2 : Int) + 1) := by
    have hlt := Nat.lt_log2_self (n := n)
    rw [show ((n.log2 : Int) + 1) = ((n.log2 + 1 : Nat) : Int) by push_cast; rfl, zpow_natCast]
    exact_mod_cast hlt
  have hdlow : (2 : Rat) ^ (q.den.log2 : Int) ≤ q.den := by
    rw [zpow_natCast]
    exact_mod_cast Nat.log2_self_le hden
  have hdhigh : (q.den : Rat) < 2 ^ ((q.den.log2 : Int) + 1) := by
    have hlt := Nat.lt_log2_self (n := q.den)
    rw [show ((q.den.log2 : Int) + 1) = ((q.den.log2 + 1 : Nat) : Int) by push_cast; rfl, zpow_natCast]
    exact_mod_cast hlt
  have hdpos : (0 : Rat) < q.den := by exact_mod_cast q.den_pos
  have hlow : (2 : Rat) ^ ((n.log2 : Int) - q.den.log2 - 1) ≤ n / q.den := by
    rw [le_div_iff₀ hdpos]
    refine le_trans ?_ hnlow
    calc (2 : Rat) ^ ((n.log2 : Int) - q.den.log2 - 1) * q.den
        ≤ 2 ^ ((n.log2 : Int) - q.den.log2 - 1) * 2 ^ ((q.den.log2 : Int) + 1) := by
          exact mul_le_mul_of_nonneg_left hdhigh.le (by positivity)
      _ = 2 ^ (n.log2 : Int) := by
          rw [← zpow_add₀ two_ne_zero]
          congr 1
          ring
  have hhigh : n / q.den < (2 : Rat) ^ ((n.log2 : Int) - q.den.log2 + 1) := by
    rw [div_lt_iff₀ hdpos]
    refine lt_of_lt_of_le hnhigh ?_
    calc (2 : Rat) ^ ((n.log2 : Int) + 1)
        = 2 ^ ((n.log2 : Int) - q.den.log2 + 1) * 2 ^ (q.den.log2 : Int) := by
          rw [← zpow_add₀ two_ne_zero]
          congr 1
          ring
      _ ≤ _ := mul_le_mul_of_nonneg_left hdlow (by positivity)
  have htoNat : q.num.toNat = n := by omega
  rw [← hvalue] at hlow hhigh
  refine ⟨if q < 2 ^ ((n.log2 : Int) - q.den.log2) then (n.log2 : Int) - q.den.log2 - 1
    else (n.log2 : Int) - q.den.log2, ?_, ?_, ?_⟩
  · split
    · exact hlow
    · exact not_lt.mp ‹_›
  · split
    · rwa [Int.sub_add_cancel]
    · exact hhigh
  · rw [toDouble, if_neg hq.ne', htoNat]

theorem roundHalfEven_intCast (n : Int) : roundHalfEven n = n := by
  simp [roundHalfEven, Rat.floor_intCast]

theorem floor_le_roundHalfEven (q : Rat) : q.floor ≤ roundHalfEven q := by
  unfold roundHalfEven
  dsimp only
  split <;> omega

theorem roundHalfEven_le (q : Rat) : roundHalfEven q ≤ q.floor + 1 := by
  unfold roundHalfEven
  dsimp only
  split <;> omega

theorem toDouble_exact (h : Exact q) : toDouble q = some q := by
  obtain ⟨digits, x, hdigits, hx, hvalue, hbound⟩ := h
  rcases eq_or_ne digits 0 with rfl | hne
  · rw [hvalue]
    simp [toDouble]
  · have hpos : 0 < q := by
      rw [hvalue]
      positivity
    obtain ⟨e, hlow, -, hdouble⟩ := exists_exponent hpos
    have he : e < 53 + x := by
      by_contra hle
      have hpow : (2 : Rat) ^ (53 + x) ≤ 2 ^ e := zpow_le_zpow_right₀ (by norm_num) (not_lt.mp hle)
      have hlt : q < (2 : Rat) ^ (53 + x) := by
        rw [hvalue, zpow_add₀ two_ne_zero]
        have hcast : (digits : Rat) < 2 ^ (53 : Int) := by exact_mod_cast hdigits
        exact mul_lt_mul_of_pos_right hcast (by positivity)
      linarith
    have hu : max (e - 52) (-1074) ≤ x := max_le (by omega) hx
    -- the unit divides the number, so nothing is rounded
    obtain ⟨k, hk⟩ := Int.eq_ofNat_of_zero_le (sub_nonneg.mpr hu)
    have hquot : q / 2 ^ max (e - 52) (-1074) = ((digits * 2 ^ k : Int) : Rat) := by
      rw [div_eq_iff (by positivity), hvalue]
      push_cast
      rw [mul_assoc, ← zpow_natCast, ← zpow_add₀ two_ne_zero]
      congr 2
      omega
    rw [hdouble, hquot, roundHalfEven_intCast, ← hquot, div_mul_cancel₀ _ (by positivity),
      if_pos hbound]

theorem exact_toDouble (hq : 0 ≤ q) (h : toDouble q = some r) : Exact r := by
  rcases hq.eq_or_lt with rfl | hpos
  · have hr : r = 0 := by simpa [toDouble] using h.symm
    exact ⟨0, 0, by norm_num, by norm_num, by simp [hr], by rw [hr]; positivity⟩
  · obtain ⟨e, -, hhigh, hdouble⟩ := exists_exponent hpos
    rw [hdouble] at h
    split at h
    · rename_i hbound
      rw [Option.some.injEq] at h
      generalize hu : max (e - 52) (-1074) = u at *
      have hule : -1074 ≤ u := by omega
      have hquot : q / 2 ^ u < 2 ^ 53 := by
        rw [div_lt_iff₀ (by positivity), ← zpow_natCast, ← zpow_add₀ two_ne_zero]
        refine lt_of_lt_of_le hhigh (zpow_le_zpow_right₀ (by norm_num) ?_)
        push_cast
        omega
      have hfloor : (q / 2 ^ u).floor < 2 ^ 53 := by
        have hle : ((q / 2 ^ u).floor : Rat) ≤ q / 2 ^ u := Rat.floor_le _
        have hcast : ((q / 2 ^ u).floor : Rat) < ((2 ^ 53 : Int) : Rat) := by
          push_cast
          linarith
        exact_mod_cast hcast
      have hnonneg : 0 ≤ (q / 2 ^ u).floor := Rat.le_floor_iff.mpr (by push_cast; positivity)
      have hk := floor_le_roundHalfEven (q / 2 ^ u)
      have hk' := roundHalfEven_le (q / 2 ^ u)
      obtain ⟨k, hkNat⟩ := Int.eq_ofNat_of_zero_le (hnonneg.trans hk)
      rw [hkNat] at h hbound
      push_cast at h hbound
      rcases Nat.lt_or_ge k (2 ^ 53) with hlt | hge
      · exact ⟨k, u, hlt, hule, h.symm, h ▸ hbound⟩
      · have hkeq : k = 2 ^ 53 := by omega
        refine ⟨2 ^ 52, u + 1, by norm_num, by omega, ?_, h ▸ hbound⟩
        rw [← h, hkeq, zpow_add₀ two_ne_zero]
        push_cast
        ring
    · cases h

theorem Exact.floor (h : Exact q) : Exact q.floor := by
  have hnonneg := h.nonneg
  obtain ⟨digits, x, hdigits, hx, hvalue, hbound⟩ := h
  have hle : (q.floor : Rat) ≤ q := Rat.floor_le q
  rcases le_or_gt 0 x with hwhole | hfraction
  · obtain ⟨k, rfl⟩ := Int.eq_ofNat_of_zero_le hwhole
    have hint : q = ((digits * 2 ^ k : Int) : Rat) := by
      rw [hvalue]
      push_cast
      rw [← zpow_natCast]
    have hfloor : (q.floor : Rat) = q := by
      rw [hint, Rat.floor_intCast]
    rw [hfloor]
    exact ⟨digits, k, hdigits, hx, hvalue, hbound⟩
  · have hfloor : 0 ≤ q.floor := Rat.le_floor_iff.mpr (by push_cast; exact hnonneg)
    obtain ⟨n, hn⟩ := Int.eq_ofNat_of_zero_le hfloor
    refine ⟨n, 0, ?_, by norm_num, by rw [hn]; simp, lt_of_le_of_lt hle hbound⟩
    have hpow : (2 : Rat) ^ x ≤ 1 := zpow_le_one_of_nonpos₀ (by norm_num) hfraction.le
    have hsmall : q ≤ digits := by
      rw [hvalue]
      exact mul_le_of_le_one_right (Nat.cast_nonneg _) hpow
    have hcast : (n : Rat) ≤ digits := by
      have hq : ((n : Int) : Rat) ≤ q := hn ▸ hle
      push_cast at hq
      linarith
    have hnat : n ≤ digits := by exact_mod_cast hcast
    omega

theorem exact_natCast {n : Nat} (h : n < 2 ^ 53) : Exact n := by
  refine ⟨n, 0, h, by norm_num, by simp, ?_⟩
  have hcast : (n : Rat) < 2 ^ 53 := by exact_mod_cast h
  exact hcast.trans (pow_lt_pow_right₀ (by norm_num) (by norm_num))

-- ---------------------------------------------------------------------------
-- The text of a whole number
-- ---------------------------------------------------------------------------

theorem digitRun_digits {cs : List Char} (h : ∀ c ∈ cs, c.isDigit = true) (inside : Bool) :
    digitRun inside cs = (cs.map fun c => c.toNat - 48, []) := by
  induction cs generalizing inside with
  | nil => rfl
  | cons c cs ih =>
    obtain ⟨hc, hcs⟩ := List.forall_mem_cons.mp h
    have hne : c ≠ '_' := by
      rintro rfl
      exact absurd hc (by decide)
    rw [digitRun, if_neg hne, digit?_of_isDigit hc]
    dsimp only
    rw [ih hcs true, List.map_cons]

theorem digitsValue_map (cs : List Char) :
    digitsValue (cs.map fun c => c.toNat - 48) = Nat.ofDigitChars 10 cs 0 := by
  rw [digitsValue, Nat.ofDigitChars_eq_foldl, List.foldl_map]
  congr 1
  funext n c
  rw [Nat.mul_comm]
  rfl

theorem parseFloat_natCast (n : Nat) : parseFloat (toString n) = toDouble n := by
  have htext : (toString n).toList = Nat.toDigits 10 n := Nat.toList_repr
  have hall := @isDigit_toDigits n
  have hspace : ∀ c : Char, c.isDigit = true → isIntSpace c = false := fun c hc => by
    rw [isIntSpace, isSpace_of_isDigit hc, Bool.false_and]
  have hleft : (Nat.toDigits 10 n).dropWhile isIntSpace = Nat.toDigits 10 n := by
    rw [List.dropWhile_eq_self_iff]
    exact fun hlen => by simp [hspace _ (hall _ (List.getElem_mem hlen))]
  have hright : List.rdropWhile isIntSpace (Nat.toDigits 10 n) = Nat.toDigits 10 n := by
    rw [List.rdropWhile_eq_self_iff]
    exact fun hne => by simp [hspace _ (hall _ (List.getLast_mem hne))]
  have hsign : takeSign (Nat.toDigits 10 n) = (false, Nat.toDigits 10 n) := by
    unfold takeSign
    split
    · rename_i cs heq
      exact absurd (hall '-' (by simp [heq])) (by decide)
    · rename_i cs heq
      exact absurd (hall '+' (by simp [heq])) (by decide)
    · rfl
  have hempty : ((Nat.toDigits 10 n).map fun c => c.toNat - 48).isEmpty = false := by
    rw [List.isEmpty_eq_false_iff]
    exact fun h => Nat.toDigits_ne_nil (List.map_eq_nil_iff.mp h)
  have hliteral : parseLiteral (Nat.toDigits 10 n) = some (n : Rat) := by
    simp only [parseLiteral, digitRun_digits hall, hempty, Bool.false_and, Bool.false_eq_true,
      if_false, parseExponent, Option.bind_eq_bind, Option.bind_some, List.append_nil,
      digitsValue_map, Nat.ofDigitChars_ten_toDigits, List.length_nil, Nat.cast_zero, sub_zero,
      zpow_zero, mul_one]
  rw [parseFloat, signed, htext, hleft, hright]
  simp only [hsign, hliteral, Option.bind_eq_bind, Option.bind_some, Bool.false_eq_true, if_false,
    Option.bind_fun_some]

theorem parseLiteral_nonneg {cs : List Char} (h : parseLiteral cs = some q) : 0 ≤ q := by
  have hread : ∀ (whole fraction : List Nat) (cs : List Char),
      (if (whole.isEmpty && fraction.isEmpty) = true then none else
        (parseExponent cs).bind fun exponent => some
          ((digitsValue (whole ++ fraction) : Rat) * 10 ^ (exponent - fraction.length))) = some q →
      0 ≤ q := by
    intro whole fraction cs h
    split at h
    · cases h
    · obtain ⟨exponent, -, h⟩ := Option.bind_eq_some_iff.mp h
      cases h
      positivity
  unfold parseLiteral at h
  simp only [Option.bind_eq_bind] at h
  generalize digitRun false cs = run at h
  obtain ⟨whole, cs⟩ := run
  dsimp only at h
  split at h
  · exact hread _ _ _ h
  · exact hread _ [] _ h

theorem exact_parseFloat {s : String} (h : parseFloat s = some q) :
    ∃ size, Exact size ∧ (q = size ∨ q = -size) := by
  simp only [parseFloat, Option.bind_eq_bind] at h
  obtain ⟨literal, hliteral, h⟩ := Option.bind_eq_some_iff.mp h
  obtain ⟨size, hsize, h⟩ := Option.bind_eq_some_iff.mp h
  refine ⟨size, exact_toDouble (parseLiteral_nonneg hliteral) hsize, ?_⟩
  rw [Option.some.injEq] at h
  split at h
  · exact .inr h.symm
  · exact .inl h.symm

end

end Py
