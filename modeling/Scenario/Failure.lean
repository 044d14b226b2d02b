import Scenario.Command.Arity
import Scenario.Expr.Token
import Scenario.Settings.Fault
import Scenario.Value.Shown
import Scenario.Vocabulary.Fault
import Scenario.World.Client

/-!
# Failures of evaluation

Each failure names its cause; `Failure.message` has the wording. The failure of a command
that took none of its operands carries the failure of the last overload tried.
-/

namespace Scenario

/-- Why a text is no literal of the kind asked for. -/
inductive LiteralReason where
  | number (fault : Decimal.LiteralFault)
  | unknownAddress
  | other (text : String)
deriving DecidableEq, Inhabited, Repr

/-- The wording of a reason. -/
def LiteralReason.message : LiteralReason → String
  | number fault => fault.message
  | unknownAddress => "not an address or known alias"
  | other text => text

/-- Where a value of some kind was asked for. -/
inductive Origin where
  | expr (e : Expr)
  | argument (name : String)
deriving Inhabited, Repr

/-- The wording of an origin. -/
def Origin.shown : Origin → String
  | expr e => e.text
  | argument name => "argument " ++ name

/-- What was found where a value of another kind was asked for. -/
inductive Found where
  | value (v : Value)
  | expr (e : Expr)
  /-- One value for each of several operands. -/
  | several
deriving Inhabited, Repr

/-- The wording of what was found. -/
def Found.shown : Found → String
  | value v => v.shown
  | expr e => e.text
  | several => "a mapped argument list"

/-- State that a command needs and does not find on record. -/
inductive Precondition where
  | lastContract
  | lastInvocation
  | receipt (function : String)
  | other (text : String)
deriving DecidableEq, Inhabited, Repr

/-- The wording of a missing precondition. -/
def Precondition.message : Precondition → String
  | lastContract => "Expected a last contract but none found."
  | lastInvocation => "Expected last invocation for LastGas but none found."
  | receipt function =>
    "Expected last invocation (" ++ function ++ ") to have a receipt for LastGas but none found."
  | other text => text

/-- Why an expression has no value. -/
inductive Failure where
  | literal (expected : Kind) (text : String) (reason : LiteralReason)
  | kindMismatch (expected : Kind) (origin : Origin) (found : Found)
  | unknownCommand (vocabulary name : String)
  /-- Commands of this name exist, but none takes the operands. -/
  | rejected (vocabulary name : String) (expr : Expr) (signatures : List String)
      (cause : Failure)
  | arity (expected : Arity) (given : Nat)
  /-- The expression does not start with a command name. -/
  | headless (vocabulary : String) (expr : Expr)
  | missingArgument (name : String)
  | precondition (missing : Precondition)
  | config (fault : ConfigFault)
  | read (error : ReadError)
  | client (failure : ClientFailure)
  | vocabulary (fault : VocabularyFault)
deriving Inhabited, Repr

/-- The wording of a failure. -/
def Failure.message : Failure → String
  | literal expected text reason =>
    "cannot read `" ++ text ++ "` as " ++ expected.name ++ ": " ++ reason.message
  | kindMismatch expected origin found =>
    "expected " ++ expected.name ++ " from " ++ origin.shown ++ ", got: " ++ found.shown
  | unknownCommand voc name => "unknown " ++ voc ++ " command: " ++ name
  | rejected voc name expr signatures cause =>
    voc ++ " command " ++ name ++ " rejected " ++ expr.text ++ " (tried: "
      ++ " | ".intercalate signatures ++ "): " ++ cause.message
  | arity expected given =>
    "expected " ++ expected.shown ++ " argument(s), got " ++ toString given
  | headless voc expr =>
    voc ++ " expression must start with a command name, got " ++ expr.text
  | missingArgument name => "missing argument: " ++ name
  | precondition missing => missing.message
  | config fault => "config error: " ++ fault.message
  | read error => "parse error: " ++ error.message
  | client failure => failure.message
  | vocabulary fault => fault.message

end Scenario
