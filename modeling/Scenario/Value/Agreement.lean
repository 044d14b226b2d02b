import Scenario.Value
import Scenario.Decimal.Rounding

/-!
# Agreement of values

`agrees` is the comparison that an assertion makes: wildcards decide first, a precise
number is compared to its significant figures only, numbers are compared as numbers
whatever their kind, addresses without regard to case, lists and maps part by part.

`same` is plain equality of values, which tells kinds apart and has no wildcards; numbers
are still compared as numbers, not by their scale.
-/

namespace Scenario.Value

/-- Whether two numbers round to the same number at `n` significant figures. -/
def agreesTo (n : Nat) (v w : Decimal) : Bool :=
  (v.roundFigures n).same (w.roundFigures n)

mutual

/-- Whether two values agree. -/
def agrees : Value → Value → Bool
  | anything, _ => true
  | _, anything => true
  | nothing, _ => false
  | _, nothing => false
  | precise v n, precise w m => agreesTo (min n m) v w
  | precise v n, b => b.number?.any (agreesTo n v)
  | a, precise w m => a.number?.any (agreesTo m w)
  | bool x, bool y => x == y
  | text x, text y => x == y
  | address x, address y => Text.sameFold x y
  | list xs, list ys => agreeItems xs ys
  | map xs, map ys => agreeEntries xs ys
  | event x, event y => x == y
  | a, b => a.number?.any fun v => b.number?.any v.same

/-- Whether two rows of values agree one by one. -/
def agreeItems : List Value → List Value → Bool
  | [], [] => true
  | x :: xs, y :: ys => agrees x y && agreeItems xs ys
  | _, _ => false

/-- Whether two rows of entries have the same keys, with values that agree. -/
def agreeEntries : List (String × Value) → List (String × Value) → Bool
  | [], [] => true
  | (k, x) :: xs, (l, y) :: ys => k == l && agrees x y && agreeEntries xs ys
  | _, _ => false

end

mutual

/-- Whether two values are equal. -/
def same : Value → Value → Bool
  | bool x, bool y => x == y
  | number v, number w => v.same w
  | scaled v, scaled w => v.same w
  | percent v, percent w => v.same w
  | precise v n, precise w m => v.same w && n == m
  | text x, text y => x == y
  | address x, address y => x == y
  | list xs, list ys => sameItems xs ys
  | map xs, map ys => sameEntries xs ys
  | anything, anything => true
  | nothing, nothing => true
  | event x, event y => x == y
  | _, _ => false

/-- Whether two rows of values are equal one by one. -/
def sameItems : List Value → List Value → Bool
  | [], [] => true
  | x :: xs, y :: ys => same x y && sameItems xs ys
  | _, _ => false

/-- Whether two rows of entries have the same keys, with equal values. -/
def sameEntries : List (String × Value) → List (String × Value) → Bool
  | [], [] => true
  | (k, x) :: xs, (l, y) :: ys => k == l && same x y && sameEntries xs ys
  | _, _ => false

end

end Scenario.Value
