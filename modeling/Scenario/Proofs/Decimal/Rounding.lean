import Mathlib.Data.Int.Log
import Mathlib.Data.Rat.Floor
import Mathlib.Tactic.Linarith
import Scenario.Decimal.Rounding
import Scenario.Proofs.Decimal.Number

/-!
# Rounding as a function of the number

Rounding works on the integer and the scale of a decimal, yet what it gives depends on the number
alone. `roundAway` rounds a number to a whole one and `roundPlaces` to so many decimal places.
`toRat_roundTo` says that rounding a decimal to a scale does just that to its number. For
significant figures, the place to round to comes from the count of the integer's digits, which
together with the scale is the order of magnitude of the number (`log_abs_toRat`); so that is a
function of the number too (`toRat_roundFigures`).
-/

namespace Scenario.Decimal

/-- The whole number nearest to a number, a tie going away from zero. -/
def roundAway (q : ℚ) : ℤ :=
  if q < 0 then -⌊-q + 1 / 2⌋ else ⌊q + 1 / 2⌋

/-- The number of so many decimal places that is nearest, a tie going away from zero. -/
def roundPlaces (q : ℚ) (s : ℤ) : ℚ :=
  roundAway (q * 10 ^ s) * 10 ^ (-s)

/-- The number of so many significant figures that is nearest, a tie going away from zero. -/
def roundSignificant (q : ℚ) (n : Nat) : ℚ :=
  if q = 0 ∨ n = 0 then 0 else roundPlaces q (n - 1 - Int.log 10 |q|)

/-! ## Whole numbers -/

theorem floor_add_half (n : ℤ) : ⌊(n : ℚ) + 1 / 2⌋ = n := by
  rw [Int.floor_eq_iff]
  constructor <;> linarith

theorem roundAway_intCast (n : ℤ) : roundAway n = n := by
  rw [roundAway]
  split
  · rw [← Int.cast_neg, floor_add_half, neg_neg]
  · exact floor_add_half n

theorem floor_div_add_half {n d z : ℤ} (hd : 0 < d) (hle : 2 * (z * d) ≤ 2 * n + d)
    (hlt : 2 * n + d < 2 * (z * d) + 2 * d) : ⌊(n : ℚ) / d + 1 / 2⌋ = z := by
  have hdpos : (0 : ℚ) < d := by exact_mod_cast hd
  have hleq : 2 * ((z : ℚ) * d) ≤ 2 * n + d := by exact_mod_cast hle
  have hltq : 2 * (n : ℚ) + d < 2 * (z * d) + 2 * d := by exact_mod_cast hlt
  have hsum : (n : ℚ) / d + 1 / 2 = (2 * n + d) / (2 * d) := by
    field_simp
  rw [Int.floor_eq_iff, hsum, le_div_iff₀ (by linarith), div_lt_iff₀ (by linarith)]
  constructor <;> linarith

theorem nearest_of_nonneg {n d : ℤ} (hn : 0 ≤ n) (hd : 0 < d) :
    nearest n d = ⌊(n : ℚ) / d + 1 / 2⌋ := by
  have hquot : n.tdiv d * d + n.tmod d = n := by
    rw [mul_comm]
    exact Int.mul_tdiv_add_tmod n d
  have hmod : 0 ≤ n.tmod d := Int.tmod_nonneg d hn
  have hmodlt : n.tmod d < d := Int.tmod_lt_of_pos n hd
  rw [nearest]
  split
  · rw [if_neg (by omega)]
    refine (floor_div_add_half hd ?_ ?_).symm
    · rw [add_mul, one_mul]
      omega
    · rw [add_mul, one_mul]
      omega
  · refine (floor_div_add_half hd ?_ ?_).symm <;> omega

theorem nearest_neg {n d : ℤ} (hn : 0 < n) : nearest (-n) d = -nearest n d := by
  rw [nearest, nearest, Int.neg_tdiv, Int.neg_tmod, Int.natAbs_neg]
  split
  · rw [if_pos (by omega), if_neg (by omega)]
    omega
  · rfl

/-- The integer nearest to a quotient is the quotient rounded. -/
theorem nearest_eq_roundAway (n : ℤ) {d : ℤ} (hd : 0 < d) : nearest n d = roundAway (n / d) := by
  have hdpos : (0 : ℚ) < d := by exact_mod_cast hd
  have hsign : (n : ℚ) / d < 0 ↔ n < 0 := by
    rw [div_lt_iff₀ hdpos, zero_mul, Int.cast_lt_zero]
  rw [roundAway]
  simp only [hsign]
  split
  · have hneg := nearest_neg (n := -n) (d := d) (by omega)
    rw [neg_neg] at hneg
    rw [hneg, nearest_of_nonneg (by omega) hd, Int.cast_neg, neg_div]
  · exact nearest_of_nonneg (by omega) hd

/-! ## Decimals -/

theorem power_pos (n : Nat) : 0 < power n := by
  have hpow : 0 < Nat.pow 10 n := Nat.pow_pos (by decide)
  exact Int.natCast_pos.mpr hpow

/-- Rounding a decimal to a scale rounds its number to as many places. -/
theorem toRat_roundTo (v : Decimal) (s : ℤ) : (v.roundTo s).toRat = roundPlaces v.toRat s := by
  have hten : (10 : ℚ) ≠ 0 := by norm_num
  rw [roundTo, roundPlaces]
  split
  · rename_i hs
    have hint : v.toRat * 10 ^ s = v.intAt s := by
      rw [toRat_eq_intAt v hs, mul_assoc, ← zpow_add₀ hten, neg_add_cancel, zpow_zero, mul_one]
    rw [hint, roundAway_intCast, toRat_eq_intAt v hs]
  · rename_i hs
    have hquot : v.toRat * 10 ^ s = v.int / power (v.scale - s).toNat := by
      have hexp : -v.scale + s = -((v.scale - s).toNat : Int) := by omega
      rw [toRat, mul_assoc, ← zpow_add₀ hten, hexp, zpow_neg, zpow_natCast, cast_power,
        div_eq_mul_inv]
    rw [hquot, ← nearest_eq_roundAway _ (power_pos _), toRat]

/-- The digits of a decimal and its scale give the order of magnitude of its number. -/
theorem log_abs_toRat {v : Decimal} (hv : v.int ≠ 0) :
    Int.log 10 |v.toRat| = (v.digits.length : ℤ) - 1 - v.scale := by
  have hdigits : 0 < v.digits.length := Nat.length_toDigits_pos
  have hlt : v.int.natAbs < 10 ^ v.digits.length :=
    (Nat.length_toDigits_le_iff (by decide) hdigits).mp le_rfl
  have hle : 10 ^ (v.digits.length - 1) ≤ v.int.natAbs := by
    by_contra hlow
    rcases Nat.eq_zero_or_pos (v.digits.length - 1) with hone | hmore
    · rw [hone, pow_zero] at hlow
      omega
    · have hfewer : v.digits.length ≤ v.digits.length - 1 :=
        (Nat.length_toDigits_le_iff (by decide) hmore).mpr (by omega)
      omega
  have hpos : 0 < |v.toRat| := abs_pos.mpr (mt toRat_eq_zero_iff.mp hv)
  have hscale : (0 : ℚ) < 10 ^ (-v.scale) := by positivity
  have hten : ((10 : ℕ) : ℚ) ≠ 0 := by norm_num
  refine le_antisymm ?_ ?_
  · refine Int.le_of_lt_add_one ((Int.lt_zpow_iff_log_lt (by decide) hpos).mp ?_)
    have hexp : (v.digits.length : ℤ) - 1 - v.scale + 1 = v.digits.length + -v.scale := by ring
    rw [hexp, zpow_add₀ hten, zpow_natCast, abs_toRat]
    exact mul_lt_mul_of_pos_right (by exact_mod_cast hlt) hscale
  · refine (Int.zpow_le_iff_le_log (by decide) hpos).mp ?_
    have hexp : (v.digits.length : ℤ) - 1 - v.scale =
        ((v.digits.length - 1 : ℕ) : ℤ) + -v.scale := by omega
    rw [hexp, zpow_add₀ hten, zpow_natCast, abs_toRat]
    exact mul_le_mul_of_nonneg_right (by exact_mod_cast hle) hscale.le

/-- Rounding a decimal to significant figures rounds its number to them. -/
theorem toRat_roundFigures (v : Decimal) (n : Nat) :
    (v.roundFigures n).toRat = roundSignificant v.toRat n := by
  rw [roundFigures, roundSignificant, isZero]
  simp only [Bool.or_eq_true, beq_iff_eq, toRat_eq_zero_iff]
  split
  · rw [toRat_ofInt, Int.cast_zero]
  · rename_i h
    have hplace : v.scale - ((v.digits.length : ℤ) - n) = n - 1 - Int.log 10 |v.toRat| := by
      rw [log_abs_toRat (fun hv => h (.inl hv))]
      ring
    rw [toRat_roundTo, hplace]

end Scenario.Decimal
