/-!
# Arity

How many operands a command takes.
-/

namespace Scenario

/-- A range of operand counts, open above if there is no `most`. -/
structure Arity where
  least : Nat
  most : Option Nat
deriving DecidableEq, Inhabited, Repr

namespace Arity

/-- Whether a count of operands fits. -/
def fits (a : Arity) (given : Nat) : Bool :=
  a.least ≤ given && a.most.all (given ≤ ·)

/-- How an arity is named in messages. -/
def shown (a : Arity) : String :=
  match a.most with
  | none => "at least " ++ toString a.least
  | some m =>
    if a.least = m then toString a.least else toString a.least ++ " to " ++ toString m

end Arity

end Scenario
