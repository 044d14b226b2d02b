import Mathlib.Algebra.Order.Field.Power
import Mathlib.Algebra.Order.Field.Rat
import Mathlib.Tactic.NormNum
import Mathlib.Tactic.Positivity
import Mathlib.Tactic.Ring
import Scenario.Decimal

/-!
# The number that a decimal stands for

`toRat` is the number of a decimal, whatever its form. It is the integer at any scale that is not
below the decimal's own (`toRat_eq_intAt`), and two decimals are the same exactly if it is the
number of both (`same_iff_toRat_eq`). Products and sums of decimals are those of their numbers
(`toRat_mul`, `toRat_add`).
-/

namespace Scenario.Decimal

/-- The number `int * 10 ^ (-scale)`. -/
def toRat (v : Decimal) : ℚ :=
  v.int * 10 ^ (-v.scale)

theorem cast_power (n : Nat) : ((power n : Int) : ℚ) = 10 ^ n := by
  change (((10 ^ n : Nat) : Int) : ℚ) = 10 ^ n
  push_cast
  rfl

theorem toRat_eq_intAt (v : Decimal) {s : Int} (hs : v.scale ≤ s) :
    v.toRat = v.intAt s * 10 ^ (-s) := by
  have hexp : -v.scale = ((s - v.scale).toNat : Int) + -s := by omega
  rw [toRat, intAt, hexp, zpow_add₀ (by norm_num), zpow_natCast]
  push_cast
  rw [cast_power, mul_assoc]

/-- Two decimals are the same if they stand for the same number. -/
theorem same_iff_toRat_eq {a b : Decimal} : a.same b = true ↔ a.toRat = b.toRat := by
  have hpos : (0 : ℚ) < 10 ^ (-max a.scale b.scale) := by positivity
  rw [same_iff, toRat_eq_intAt a (le_max_left _ _), toRat_eq_intAt b (le_max_right _ _),
    mul_left_inj' hpos.ne', Int.cast_inj]

theorem same_eq_decide (a b : Decimal) : a.same b = decide (a.toRat = b.toRat) := by
  rw [Bool.eq_iff_iff, same_iff_toRat_eq, decide_eq_true_eq]

theorem same_comm (a b : Decimal) : a.same b = b.same a := by
  rw [same_eq_decide, same_eq_decide]
  exact decide_eq_decide.mpr eq_comm

theorem same_congr {a a' : Decimal} (h : a.same a' = true) (b : Decimal) :
    a.same b = a'.same b := by
  rw [same_eq_decide, same_eq_decide, same_iff_toRat_eq.mp h]

theorem toRat_ofInt (n : Int) : (ofInt n).toRat = n := by
  simp [toRat, ofInt]

theorem abs_toRat (v : Decimal) : |v.toRat| = v.int.natAbs * 10 ^ (-v.scale) := by
  have hunit : (0 : ℚ) < 10 ^ (-v.scale) := by positivity
  rw [toRat, abs_mul, abs_of_pos hunit, Nat.cast_natAbs, Int.cast_abs]

theorem toRat_neg (v : Decimal) : v.neg.toRat = -v.toRat := by
  rw [toRat, toRat, neg, Int.cast_neg, neg_mul]

theorem toRat_mul (a b : Decimal) : (a.mul b).toRat = a.toRat * b.toRat := by
  rw [toRat, toRat, toRat, mul, neg_add, zpow_add₀ (by norm_num), Int.cast_mul]
  ring

theorem toRat_add (a b : Decimal) : (a.add b).toRat = a.toRat + b.toRat := by
  rw [toRat_eq_intAt a (le_max_left _ b.scale), toRat_eq_intAt b (le_max_right a.scale _),
    ← add_mul, ← Int.cast_add]
  rfl

theorem toRat_eq_zero_iff {v : Decimal} : v.toRat = 0 ↔ v.int = 0 := by
  have hpos : (0 : ℚ) < 10 ^ (-v.scale) := by positivity
  rw [toRat, mul_eq_zero, Int.cast_eq_zero]
  exact or_iff_left hpos.ne'

end Scenario.Decimal
