import Scenario.Expr.Reader
import Scenario.Vocabulary.Core
import Scenario.Vocabulary.Erc20

/-!
# Evaluation

The two vocabularies evaluate operands through each other: a core command evaluates its
operands as core commands, `Erc20` hands all of its operands on to the token queries as
one list, and a query evaluates its own operands as core commands again.

Every such step goes to an expression of smaller rank. The rank counts each level of
lists twice, because a list can be taken up by both vocabularies: by `Erc20` as the row of
its operands, and then operand by operand. The recursion below goes on only where the
rank falls.
-/

namespace Scenario

/-- The vocabularies in which an expression can be evaluated. -/
inductive Dialect where
  | core
  | erc20
deriving DecidableEq, Inhabited, Repr

/-- The height of a row of operands: 0 for none, otherwise one more than the deepest of them. -/
def Expr.height : List Expr → Nat
  | [] => 0
  | e :: es => 1 + Expr.deepest (e :: es)

namespace Dialect

/-- A bound on how many evaluations are nested in that of an expression, itself included. -/
def rank : Dialect → Expr → Nat
  | core, e => 2 * e.depth + 2
  | erc20, .atom _ => 1
  | erc20, .list es => 2 * Expr.height es + 1

/-- The vocabulary of a dialect, with the evaluations that its commands go on to. -/
def vocabulary (core erc20 : Reading) : Dialect → Vocabulary
  | .core => Core.vocabulary core erc20 (Erc20.vocabulary core).manual
  | .erc20 => Erc20.vocabulary core

/-- The name of the vocabulary of a dialect. -/
def name : Dialect → String
  | core => "Core"
  | erc20 => "Erc20"

/-- Evaluates an expression in a dialect. -/
def evaluate (d : Dialect) (e : Expr) : Action Value :=
  let within (d' : Dialect) : Reading := fun e' =>
    if d'.rank e' < d.rank e then d'.evaluate e' else .fail (.headless d'.name e')
  (d.vocabulary (within .core) (within .erc20)).evaluate e
termination_by d.rank e

/-- The vocabulary of a dialect. -/
def commands (d : Dialect) : Vocabulary :=
  d.vocabulary core.evaluate erc20.evaluate

end Dialect

/-- Evaluates an expression as a core command. -/
def evaluate : Reading :=
  Dialect.core.evaluate

/-- Reads a command and evaluates it. -/
def evaluateText (src : String) : Action Value :=
  match readCommand src with
  | .ok e => evaluate e
  | .error f => .fail (.read f)

end Scenario
