/-!
# Exact decimals

A decimal is an integer and a scale, and stands for `int * 10 ^ (-scale)`. The same
number has many such forms and none is preferred: `5.000` is 5000 at scale 3, and
arithmetic says at which scale its result stands. `same` compares numbers, not forms.

The forms matter, as a number is written out by its scale. What is assumed of the arithmetic
beneath is this. It is exact, with integers of any size. A product has the product of the
integers and the sum of the scales, also if one factor is zero (`mul`). A sum stands at the
larger of the two scales, also if one summand is zero (`add`). A negation, which is a
difference from zero, stands at the scale of the number (`neg`). None of them shortens the
integer or moves the scale to a normal form.
-/

namespace Scenario

/-- The number `int * 10 ^ (-scale)`. -/
structure Decimal where
  int : Int
  scale : Int
deriving DecidableEq, Inhabited, Repr

namespace Decimal

/-- A whole number, at scale 0. -/
def ofInt (n : Int) : Decimal := ⟨n, 0⟩

/-- Whether the number is zero, at whatever scale. -/
def isZero (v : Decimal) : Bool :=
  v.int == 0

/-- The product: the integers multiply and the scales add up, zero or not. -/
def mul (a b : Decimal) : Decimal :=
  ⟨a.int * b.int, a.scale + b.scale⟩

/-- Ten to the power `n`. -/
def power (n : Nat) : Int :=
  Nat.pow 10 n

theorem power_zero : power 0 = 1 := rfl

theorem natAbs_power (n : Nat) : (power n).natAbs = Nat.pow 10 n := rfl

/-- The integer that stands for `v` at the scale `s`, which is not below its own. -/
def intAt (v : Decimal) (s : Int) : Int :=
  v.int * power (s - v.scale).toNat

/-- The sum, at the larger of the two scales, zero or not. -/
def add (a b : Decimal) : Decimal :=
  let s := max a.scale b.scale
  ⟨a.intAt s + b.intAt s, s⟩

/-- The negation, at the same scale. -/
def neg (v : Decimal) : Decimal :=
  ⟨-v.int, v.scale⟩

/-- Ten to the power `n`, as 1 at scale `-n`. -/
def tenTo (n : Nat) : Decimal :=
  ⟨1, -n⟩

/-- The number times ten to the power `n`, without any rounding. -/
def scaledBy (v : Decimal) (n : Nat) : Decimal :=
  v.mul (tenTo n)

/-- Whether `x` moved up by `d` decimal places is `y`. A power above the size of `y` is not
computed, for no multiple of it but zero is that small. -/
def shiftsTo (x : Int) (d : Nat) (y : Int) : Bool :=
  if x = 0 then y == 0
  else d ≤ y.natAbs.log2 && x * power d == y

theorem shiftsTo_iff {x y : Int} {d : Nat} : shiftsTo x d y = true ↔ x * power d = y := by
  unfold shiftsTo
  split
  · rename_i hx
    subst hx
    rw [Int.zero_mul, beq_iff_eq]
    exact ⟨Eq.symm, Eq.symm⟩
  · rename_i hx
    simp only [Bool.and_eq_true, decide_eq_true_eq, beq_iff_eq, and_iff_right_iff_imp]
    rintro rfl
    have h1 : 1 ≤ x.natAbs := by omega
    have h2 : Nat.pow 2 d ≤ x.natAbs * Nat.pow 10 d :=
      Nat.le_trans (Nat.pow_le_pow_left (by decide) d) (Nat.le_mul_of_pos_left _ h1)
    rw [Int.natAbs_mul, natAbs_power]
    exact (Nat.le_log2 (Nat.ne_of_gt (Nat.lt_of_lt_of_le (Nat.two_pow_pos d) h2))).mpr h2

/-- Whether two decimals are the same number. -/
def same (a b : Decimal) : Bool :=
  if a.scale ≤ b.scale then shiftsTo a.int (b.scale - a.scale).toNat b.int
  else shiftsTo b.int (a.scale - b.scale).toNat a.int

theorem same_iff {a b : Decimal} :
    same a b = true ↔ a.intAt (max a.scale b.scale) = b.intAt (max a.scale b.scale) := by
  unfold same intAt
  split
  · rename_i h
    simp [shiftsTo_iff, Int.max_eq_right h, power_zero]
  · rename_i h
    simp only [shiftsTo_iff, Int.max_eq_left (Int.le_of_not_le h), Int.sub_self, Int.toNat_zero,
      power_zero, Int.mul_one]
    exact ⟨Eq.symm, Eq.symm⟩

/-- The decimal digits of the integer, without its sign. -/
def digits (v : Decimal) : List Char :=
  Nat.toDigits 10 v.int.natAbs

end Decimal

end Scenario
