/-!
# Numbers of limited width

The whole numbers that a given number of bits can stand for.
-/

namespace Scenario

/-- Whether a number fits into so many bits with a sign. -/
def fitsSigned (bits : Nat) (n : Int) : Bool :=
  -(Nat.pow 2 (bits - 1) : Int) ≤ n && n < (Nat.pow 2 (bits - 1) : Int)

/-- Whether a number fits into so many bits without a sign. -/
def fitsUnsigned (bits : Nat) (n : Int) : Bool :=
  0 ≤ n && n < (Nat.pow 2 bits : Int)

end Scenario
