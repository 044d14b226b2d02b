import Scenario.CommandLine
import Scenario.Main
import Scenario.Proofs.Evaluate.Failures
import Scenario.Proofs.Expr.RoundTrip
import Scenario.Proofs.Action.Coupling
import Scenario.Proofs.Command.Coupling
import Scenario.Proofs.Vocabulary.Overloads
import Scenario.Proofs.Evaluate.Coupling
import Scenario.Proofs.Session
import Scenario.Proofs.Evaluate.Independence
import Scenario.Proofs.Decimal.Literal
import Scenario.Proofs.Evaluate.Substitution
import Scenario.Proofs.Evaluate.Forms
import Scenario.Proofs.Value.Normal
import Scenario.Proofs.Value.Equality
import Scenario.Proofs.Value.Wildcards
import Scenario.Proofs.Expr.Layout
import Scenario.Proofs.Vocabulary.Namespaces
import Scenario.Proofs.Settings
import Scenario.Proofs.Vocabulary.Traces
import Scenario.Proofs.Expr.Depth
import Scenario.Proofs.Expr.Lexeme
import Scenario.Proofs.AddressBook.Aliases
import Scenario.Proofs.AddressBook.Reachable
import Scenario.Proofs.Decimal.Nearest
import Scenario.Proofs.Decimal.Digits
import Scenario.Proofs.Decimal.Plain
import Scenario.Proofs.Evaluate.Precision
import Scenario.Proofs.Vocabulary.Order
import Scenario.Proofs.Evaluate.Atoms
import Scenario.Proofs.Vocabulary.Causes
import Scenario.Proofs.Decimal.Spelling
import Scenario.Proofs.Evaluate.Spans
import Scenario.Proofs.Expr.Script
import Scenario.Proofs.Vocabulary.Faults
import Scenario.Proofs.Settings.Acceptance
import Scenario.Proofs.Evaluate.Maps
import Scenario.Proofs.Evaluate.Nesting
import Scenario.Proofs.Decimal.Limits
import Scenario.Proofs.Evaluate.Observed
import Scenario.Proofs.Expr.Extent
import Scenario.Proofs.Settings.Limits
import Scenario.Proofs.Evaluate.Scales
