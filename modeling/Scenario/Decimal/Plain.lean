import Scenario.Decimal

/-!
# Plain rendering

A number is written without an exponent and without zeros at the end of its fraction.
Only beyond `maxExponent` places does it fall back to its digits and an exponent.
-/

namespace Scenario.Decimal

/-- The largest exponent that a literal may carry and that is written out in full. -/
def maxExponent : Nat := 10000

/-- Digits without the zeros at their end. -/
def trimZeros (ds : List Char) : List Char :=
  (ds.reverse.dropWhile (· == '0')).reverse

/-- Digits with a point before the last `s` of them; zeros are put in front where there are not
enough, and dropped at the end of the fraction. -/
def pointed (ds : List Char) (s : Nat) : List Char :=
  let padded := List.replicate (s + 1 - ds.length) '0' ++ ds
  let whole := padded.take (padded.length - s)
  let fraction := trimZeros (padded.drop (padded.length - s))
  if fraction.isEmpty then whole else whole ++ '.' :: fraction

/-- The plain rendering of the magnitude. -/
def plainMagnitude (v : Decimal) : List Char :=
  if maxExponent < v.scale.natAbs then v.digits ++ 'e' :: (toString (-v.scale)).toList
  else if v.scale ≤ 0 then v.digits ++ List.replicate v.scale.natAbs '0'
  else pointed v.digits v.scale.natAbs

/-- The plain rendering. -/
def plain (v : Decimal) : String :=
  if v.isZero then "0"
  else String.ofList ((if v.int < 0 then ['-'] else []) ++ v.plainMagnitude)

end Scenario.Decimal
