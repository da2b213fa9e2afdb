import Mathlib.Data.Rat.Floor
import Mathlib.Tactic.Ring
import PoolLedger.Decimal
import PoolLedger.Proofs.Numeral

/-!
# Products that lose no digit

A product has no more digits than its factors together (`Numeral.size_mul_le`), so the working
precision holds all of them and nothing is rounded (`Decimal.times_eq`). What is cut is therefore
the exact product, as a rational number, and it is cut toward zero (`Decimal.scale_eq`). How large
the product is decides whether it can be written at all (`Decimal.scaleAmount_eq`).
-/

namespace PoolLedger

namespace Numeral

theorem size_le_iff {n k : Nat} (hk : 0 < k) : size n ≤ k ↔ n < 10 ^ k :=
  Nat.length_toDigits_le_iff (by decide) hk

theorem size_pos (n : Nat) : 0 < size n :=
  List.length_pos_iff.2 Nat.toDigits_ne_nil

theorem pow_le_of_ne_zero {n : Nat} (hn : n ≠ 0) : 10 ^ (size n - 1) ≤ n := by
  by_cases hone : size n = 1
  · rw [hone]
    exact Nat.one_le_iff_ne_zero.2 hn
  · have hpos := size_pos n
    by_contra hlt
    have hsize := (size_le_iff (n := n) (k := size n - 1) (by omega)).2 (by omega)
    omega

theorem lt_pow_size (n : Nat) : n < 10 ^ size n :=
  (size_le_iff (size_pos n)).1 (Nat.le_refl _)

theorem size_mul_le (m n : Nat) : size (m * n) ≤ size m + size n := by
  rw [size_le_iff (Nat.add_pos_left (size_pos m) _), pow_add]
  exact Nat.mul_lt_mul_of_lt_of_lt (lt_pow_size m) (lt_pow_size n)

end Numeral

/-! ## The integer part -/

/-- The integer part of a rational number: its fraction is dropped, whatever the sign. -/
def towardZero (q : ℚ) : ℤ :=
  if 0 ≤ q then ⌊q⌋ else ⌈q⌉

theorem towardZero_nonneg {q : ℚ} (h : 0 ≤ q) : 0 ≤ towardZero q := by
  rw [towardZero, if_pos h]
  exact Int.floor_nonneg.2 h

theorem towardZero_intCast (n : ℤ) : towardZero n = n := by
  unfold towardZero
  split
  · exact Int.floor_intCast n
  · exact Int.ceil_intCast n

theorem natAbs_floor {q : ℚ} (h : 0 ≤ q) : ⌊q⌋.natAbs = ⌊q⌋₊ := by
  have hfloor := Int.floor_nonneg.2 h
  rw [← Int.floor_toNat]
  omega

/-- The magnitude of the integer part is that of the number, rounded down. -/
theorem natAbs_towardZero (q : ℚ) : (towardZero q).natAbs = ⌊|q|⌋₊ := by
  unfold towardZero
  split
  · rename_i hq
    rw [abs_of_nonneg hq, natAbs_floor hq]
  · rename_i hq
    have hneg := not_le.1 hq
    rw [abs_of_neg hneg, ← natAbs_floor (neg_pos.2 hneg).le, Int.floor_neg, Int.natAbs_neg]

theorem towardZero_eq_zero {q : ℚ} (h : |q| < 1) : towardZero q = 0 := by
  rw [← Int.natAbs_eq_zero, natAbs_towardZero, Nat.floor_eq_zero]
  exact h

/-- A number has more digits than are written if it is large. -/
theorem size_towardZero_le {q : ℚ} {k : ℕ} (hk : 0 < k) :
    Numeral.size (towardZero q).natAbs ≤ k ↔ |q| < 10 ^ k := by
  rw [Numeral.size_le_iff hk, natAbs_towardZero, Nat.floor_lt (abs_nonneg q)]
  push_cast
  rfl

/-- Division of integers toward zero is that of rational numbers, cut. -/
theorem towardZero_div (n : ℤ) {d : ℕ} (hd : 0 < d) : towardZero (n / d : ℚ) = n.tdiv d := by
  have hd' : (0 : ℚ) < d := Nat.cast_pos.2 hd
  unfold towardZero
  by_cases hn : 0 ≤ n
  · have hq : 0 ≤ (n / d : ℚ) := div_nonneg (Int.cast_nonneg hn) hd'.le
    rw [if_pos hq, Rat.floor_intCast_div_natCast, Int.tdiv_eq_ediv_of_nonneg hn]
  · have hq : ¬0 ≤ (n / d : ℚ) := by
      rw [not_le]
      exact div_neg_of_neg_of_pos (Int.cast_lt_zero.2 (not_le.1 hn)) hd'
    have hneg : 0 ≤ -n := by omega
    rw [if_neg hq, Rat.ceil_intCast_div_natCast, ← Int.tdiv_eq_ediv_of_nonneg hneg, Int.neg_tdiv,
      neg_neg]

/-! ## Exact products -/

namespace Decimal

/-- The number that a decimal stands for. -/
def value (d : Decimal) : ℚ :=
  d.coefficient * 10 ^ d.exponent

/-- **Nothing is rounded**: the working precision holds all digits of the product. -/
theorem times_eq (d : Decimal) (n : Int) :
    d.times n = { d with coefficient := d.coefficient * n } := by
  unfold times round
  refine if_pos ?_
  show Numeral.size (d.coefficient * n).natAbs ≤ Numeral.size n.natAbs + d.size + 1
  have hproduct := Numeral.size_mul_le d.coefficient.natAbs n.natAbs
  rw [← Int.natAbs_mul] at hproduct
  unfold size
  omega

theorem value_times (d : Decimal) (n : Int) : (d.times n).value = d.value * n := by
  rw [times_eq, value, value, Int.cast_mul]
  ring

theorem truncate_eq (d : Decimal) : d.truncate = towardZero d.value := by
  unfold truncate value
  simp only [Nat.pow_eq]
  -- By its exponent, it is a product with a power of ten or a quotient by one.
  split
  · rename_i hexp
    obtain ⟨k, hk⟩ := Int.eq_ofNat_of_zero_le hexp
    have hwhole : (d.coefficient * 10 ^ d.exponent : ℚ) =
        ((d.coefficient * (10 ^ k : ℕ) : ℤ) : ℚ) := by
      rw [hk, zpow_natCast]
      push_cast
      rfl
    rw [hwhole, towardZero_intCast, hk, Int.toNat_natCast]
  · rename_i hexp
    obtain ⟨k, hk⟩ := Int.eq_ofNat_of_zero_le (show 0 ≤ -d.exponent by omega)
    have hquotient : (d.coefficient * 10 ^ d.exponent : ℚ) = d.coefficient / (10 ^ k : ℕ) := by
      rw [show d.exponent = -(k : ℤ) by omega, zpow_neg, zpow_natCast, ← div_eq_mul_inv]
      push_cast
      rfl
    rw [hquotient, towardZero_div _ (Nat.pow_pos (by decide)), hk, Int.toNat_natCast]

/-- **The exact product is cut toward zero.** -/
theorem scale_eq (d : Decimal) (n : Int) : d.scale n = towardZero (d.value * n) := by
  rw [scale, truncate_eq, value_times]

/-! ## How large a decimal is -/

variable {d : Decimal}

theorem abs_value (d : Decimal) : |d.value| = d.coefficient.natAbs * 10 ^ d.exponent := by
  have hpow : (0 : ℚ) < 10 ^ d.exponent := zpow_pos (by norm_num) _
  rw [value, abs_mul, abs_of_pos hpow, Nat.cast_natAbs, Int.cast_abs]

/-- The number of digits before the decimal point bounds a decimal. -/
theorem abs_value_lt (d : Decimal) : |d.value| < 10 ^ (d.size + d.exponent) := by
  have hpow : (0 : ℚ) < 10 ^ d.exponent := zpow_pos (by norm_num) _
  have hsize : (d.coefficient.natAbs : ℚ) < 10 ^ d.size := by
    exact_mod_cast Numeral.lt_pow_size d.coefficient.natAbs
  rw [abs_value, zpow_add₀ (by norm_num), zpow_natCast]
  exact mul_lt_mul_of_pos_right hsize hpow

theorem le_abs_value (h : d.coefficient ≠ 0) : 10 ^ (d.size + d.exponent - 1) ≤ |d.value| := by
  have hpow : (0 : ℚ) < 10 ^ d.exponent := zpow_pos (by norm_num) _
  have hsize : (10 ^ (d.size - 1) : ℚ) ≤ d.coefficient.natAbs := by
    exact_mod_cast Numeral.pow_le_of_ne_zero (Int.natAbs_ne_zero.2 h)
  have hpos : 0 < d.size := Numeral.size_pos _
  rw [abs_value, show (d.size + d.exponent - 1 : ℤ) = (d.size - 1 : ℕ) + d.exponent by omega,
    zpow_add₀ (by norm_num), zpow_natCast]
  exact mul_le_mul_of_nonneg_right hsize hpow.le

/-- A decimal is below a power of ten if it has no more digits before the decimal point. -/
theorem abs_value_lt_iff (h : d.coefficient ≠ 0) {k : ℤ} :
    |d.value| < 10 ^ k ↔ d.size + d.exponent ≤ k := by
  constructor
  · intro hlt
    have := (zpow_lt_zpow_iff_right₀ (by norm_num : (1 : ℚ) < 10)).1 ((le_abs_value h).trans_lt hlt)
    omega
  · intro hle
    exact (abs_value_lt d).trans_le (zpow_le_zpow_right₀ (by norm_num) hle)

/-! ## Amounts that are scaled -/

/-- **What comes of scaling an amount**: the exact product, cut toward zero, unless it is too
large. -/
theorem scaleAmount_eq (d : Decimal) (n : Int) : d.scaleAmount n =
    if |d.value * n| < 10 ^ Numeral.maxDigits then .ok (toString (towardZero (d.value * n)))
    else if |d.value * n| < 10 ^ (maxProductExponent + 1) then .error (.read (.numeral .writing))
    else .error .outOfRange := by
  have hdigits : (10 : ℚ) ^ Numeral.maxDigits = 10 ^ (Numeral.maxDigits : ℤ) :=
    (zpow_natCast _ _).symm
  have hpos : 0 < Numeral.maxDigits := by decide
  rw [← value_times]
  unfold scaleAmount scale
  generalize d.times n = product
  dsimp only
  -- Products below one are told by the number of digits, without dividing.
  by_cases hsmall : product.coefficient = 0 ∨ product.size + product.exponent ≤ 0
  · have hone : |product.value| < 1 := by
      rcases hsmall with hzero | hwhole
      · rw [abs_value, hzero]
        norm_num
      · exact (abs_value_lt product).trans_le (zpow_le_one_of_nonpos₀ (by norm_num) hwhole)
    have hlt : |product.value| < 10 ^ Numeral.maxDigits := hone.trans_le (one_le_pow₀ (by norm_num))
    rw [if_pos (by simpa using hsmall), if_pos hlt, towardZero_eq_zero hone]
    rfl
  · obtain ⟨hzero, hwhole⟩ := not_or.1 hsmall
    rw [if_neg (by simpa using hsmall)]
    by_cases hshort : |product.value| < 10 ^ Numeral.maxDigits
    · have hle : product.size + product.exponent ≤ Numeral.maxDigits :=
        (abs_value_lt_iff hzero).1 (hdigits ▸ hshort)
      have hmax : (Numeral.maxDigits : ℤ) ≤ maxProductExponent := by decide
      rw [if_neg (by omega), if_neg (by omega), if_pos hshort, truncate_eq,
        Amount.write_eq_ok.2 ⟨(size_towardZero_le hpos).2 hshort, rfl⟩]
      rfl
    · have hlt : Numeral.maxDigits < product.size + product.exponent := by
        rw [hdigits, abs_value_lt_iff hzero] at hshort
        omega
      rw [if_neg hshort]
      -- Too long to be written, or even beyond what a decimal holds.
      by_cases hrange : |product.value| < 10 ^ (maxProductExponent + 1)
      · have hle := (abs_value_lt_iff hzero).1 hrange
        rw [if_neg (by omega), if_pos hlt, if_pos hrange]
      · have hbeyond := mt (abs_value_lt_iff hzero).2 hrange
        rw [if_pos (by omega), if_neg hrange]

end Decimal

end PoolLedger
