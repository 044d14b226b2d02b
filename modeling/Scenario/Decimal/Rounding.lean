import Scenario.Decimal

/-!
# Rounding

Rounding to a scale, to a count of significant figures and to a whole number. A tie goes
away from zero. A number that already stands at the scale, or at a smaller one, keeps its
form.
-/

namespace Scenario.Decimal

/-- The integer nearest to `n / d`, a tie going away from zero. -/
def nearest (n d : Int) : Int :=
  let q := n.tdiv d
  if d ≤ 2 * ((n.tmod d).natAbs : Int) then
    if n < 0 then q - 1 else q + 1
  else q

/-- Rounds to the scale `s`. -/
def roundTo (v : Decimal) (s : Int) : Decimal :=
  if v.scale ≤ s then v
  else ⟨nearest v.int (power (v.scale - s).toNat), s⟩

/-- Rounds to `n` significant figures; nothing is left of zero, or of no figures, but zero. -/
def roundFigures (v : Decimal) (n : Nat) : Decimal :=
  if v.isZero || n == 0 then ofInt 0
  else v.roundTo (v.scale - (v.digits.length - n))

/-- Rounds to a whole number. -/
def roundWhole (v : Decimal) : Decimal :=
  v.roundTo 0

end Scenario.Decimal
