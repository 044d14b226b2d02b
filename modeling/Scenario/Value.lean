import Scenario.Decimal
import Scenario.Expr
import Scenario.Entries
import Scenario.Text.Fold

/-!
# Values

What an expression evaluates to. Every value has a kind; an operand that asks for a kind
takes the values that the kind accepts (`Kind.accepts`): its own, and for the two general
kinds of numbers their refinements.
-/

namespace Scenario

/-- The kinds of values. -/
inductive Kind where
  | bool
  | number
  | scaled
  | percent
  | precise
  | text
  | address
  | list
  | map
  | anything
  | nothing
  | event
deriving DecidableEq, Inhabited, Repr

/-- The name of a kind in messages. -/
def Kind.name : Kind → String
  | bool => "Bool"
  | number => "Number"
  | scaled => "ScaledNumber"
  | percent => "PercentNumber"
  | precise => "PreciseNumber"
  | text => "String"
  | address => "Address"
  | list => "List"
  | map => "Map"
  | anything => "Anything"
  | nothing => "Nothing"
  | event => "Event"

/-- A value. -/
inductive Value where
  | bool (value : Bool)
  | number (value : Decimal)
  /-- A number already multiplied by the fixed-point scale. -/
  | scaled (value : Decimal)
  /-- A scaled number that stands for a percentage. -/
  | percent (value : Decimal)
  /-- A number that is known to so many significant figures only. -/
  | precise (value : Decimal) (figures : Nat)
  | text (value : String)
  | address (value : String)
  | list (items : List Value)
  /-- Entries in ascending order of their keys. -/
  | map (entries : List (String × Value))
  /-- Agrees with every value. -/
  | anything
  /-- Agrees with no value, not even with itself. -/
  | nothing
  /-- An expression left for a later reading. -/
  | event (expr : Expr)
deriving Inhabited, Repr

/-- The address that stands for no account. -/
def zeroAddress : String := "0x0000000000000000000000000000000000000000"

namespace Value

/-- The kind of a value. -/
def kind : Value → Kind
  | bool _ => .bool
  | number _ => .number
  | scaled _ => .scaled
  | percent _ => .percent
  | precise _ _ => .precise
  | text _ => .text
  | address _ => .address
  | list _ => .list
  | map _ => .map
  | anything => .anything
  | nothing => .nothing
  | event _ => .event

/-- The number that a number, a scaled number or a percentage holds. -/
def number? : Value → Option Decimal
  | number v => some v
  | scaled v => some v
  | percent v => some v
  | _ => none

/-- Whether a value counts as true. -/
def truthy : Value → Bool
  | bool b => b
  | number v => !v.isZero
  | scaled v => !v.isZero
  | percent v => !v.isZero
  | precise v _ => !v.isZero
  | text s => s != ""
  | address s => s != "" && !Text.sameFold s zeroAddress
  | list items => !items.isEmpty
  | map entries => !entries.isEmpty
  | anything => true
  | nothing => false
  | event _ => true

end Value

/-- Whether an operand of this kind takes a value. -/
def Kind.accepts : Kind → Value → Bool
  | number, v => v.number?.isSome
  | scaled, v => v.kind == .scaled || v.kind == .percent
  | k, v => k == v.kind

end Scenario
