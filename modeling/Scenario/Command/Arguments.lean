import Scenario.Failure

/-!
# Arguments

The operands of a command after they were read, by parameter name. A parameter that reads
each of its operands on its own has one value for each; every other parameter has one.
-/

namespace Scenario

/-- What one parameter was given. -/
inductive Argument where
  | one (value : Value)
  | several (values : List Value)
deriving Inhabited, Repr

/-- What each parameter was given, by its name. -/
abbrev Arguments := Entries Argument

namespace Arguments

/-- What a parameter was given. -/
def argument (args : Arguments) (name : String) : Except Failure Argument :=
  match args.get? name with
  | some a => .ok a
  | none => .error (.missingArgument name)

/-- The one value of a parameter. -/
def value (args : Arguments) (name : String) : Except Failure Value :=
  match args.argument name with
  | .ok (.one v) => .ok v
  | .ok (.several _) => .error (.kindMismatch .anything (.argument name) .several)
  | .error e => .error e

/-- All values of a parameter. -/
def values (args : Arguments) (name : String) : Except Failure (List Value) :=
  match args.argument name with
  | .ok (.one v) => .ok [v]
  | .ok (.several vs) => .ok vs
  | .error e => .error e

/-- The value of a parameter, several values being a list of them, and the other arguments. -/
def take (args : Arguments) (name : String) : Except Failure (Value × Arguments) :=
  match args.argument name with
  | .ok (.one v) => .ok (v, args.erase name)
  | .ok (.several vs) => .ok (.list vs, args.erase name)
  | .error e => .error e

/-- The content of the one value of a parameter, if it is of the kind that `content?` reads. -/
def content {α : Type} (kind : Kind) (content? : Value → Option α) (args : Arguments)
    (name : String) : Except Failure α :=
  match args.value name with
  | .ok v =>
    match content? v with
    | some a => .ok a
    | none => .error (.kindMismatch kind (.argument name) (.value v))
  | .error e => .error e

/-- The truth value of a parameter. -/
def bool : Arguments → String → Except Failure Bool :=
  content .bool fun
    | .bool b => some b
    | _ => none

/-- The number of a parameter, whatever kind of number it is. -/
def number : Arguments → String → Except Failure Decimal :=
  content .number Value.number?

/-- The text of a parameter. -/
def text : Arguments → String → Except Failure String :=
  content .text fun
    | .text s => some s
    | _ => none

/-- The address of a parameter. -/
def address : Arguments → String → Except Failure String :=
  content .address fun
    | .address s => some s
    | _ => none

/-- The expression that a parameter left unread. -/
def event : Arguments → String → Except Failure Expr :=
  content .event fun
    | .event e => some e
    | _ => none

end Arguments

end Scenario
