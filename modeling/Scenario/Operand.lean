import Scenario.Command

/-!
# Readings of operands

How an operand becomes a value. Most readings go two ways (`readAs`): an atom is first
taken as a literal of the kind asked for; a list, or an atom that is no such literal, is
evaluated, and its value must be of that kind. If an atom fails both ways, its failure as
a literal is reported.

The evaluation that a reading falls back to is a parameter, called `core` throughout.
-/

namespace Scenario.Operand

/-- A way to take an atom as a literal. -/
abbrev Literal := World → String → Except Failure Value

/-- The value, if it is of the kind asked for. -/
def expect (kind : Kind) (e : Expr) (v : Value) : Action Value :=
  if kind.accepts v then pure v else .fail (.kindMismatch kind (.expr e) (.value v))

/-- Reads an operand as a literal, or else evaluates it and checks the kind of its value. -/
def readAs (kind : Kind) (literal : Literal) (evaluate : Reading) : Reading
  | .list es => do
    let v ← evaluate (.list es)
    expect kind (.list es) v
  | .atom s => do
    match literal (← .world) s with
    | .ok v => pure v
    | .error asLiteral =>
      match ← (evaluate (.atom s)).attempt with
      | .ok v => expect kind (.atom s) v
      | .error _ => .fail asLiteral

/-! ## Literals -/

/-- Any atom is a truth value; `true`, `t` and `1` are true. -/
def boolLiteral : Literal := fun _ s =>
  let s := Text.fold (Text.trim s)
  .ok (.bool (s == "true" || s == "t" || s == "1"))

/-- A numeric literal. -/
def numberLiteral : Literal := fun _ s =>
  match Decimal.readNumber s with
  | .ok v => .ok (.number v)
  | .error f => .error (.literal .number s (.number f))

/-- Any atom is a text, as it stands. -/
def textLiteral : Literal := fun _ s =>
  .ok (.text s)

/-- A written address, `zero` or an alias. -/
def addressLiteral : Literal := fun w s =>
  match w.resolve? s with
  | some a => .ok (.address a)
  | none => .error (.literal .address s .unknownAddress)

/-! ## Readings -/

/-- Leaves the operand for later. -/
def event : Reading := fun e =>
  pure (.event e)

/-- A truth value. -/
def bool (core : Reading) : Reading :=
  readAs .bool boolLiteral core

/-- A number of any kind. -/
def number (core : Reading) : Reading :=
  readAs .number numberLiteral core

/-- The content of a number that was read from `e`. -/
def content (e : Expr) (v : Value) : Except Failure Decimal :=
  match v.number? with
  | some n => .ok n
  | none => .error (.kindMismatch .number (.expr e) (.value v))

/-- A number multiplied by the fixed-point scale of the world. -/
def scaledNumber (core : Reading) (e : Expr) : Action Decimal := do
  let v ← number core e
  let n ← .ofExcept (content e v)
  return n.scaledBy (← Action.world).mantissaDecimals

/-- A scaled number. -/
def scaled (core : Reading) : Reading := fun e =>
  .scaled <$> scaledNumber core e

/-- A scaled number as a percentage. -/
def percent (core : Reading) : Reading := fun e =>
  .percent <$> scaledNumber core e

/-- A text. -/
def text (core : Reading) : Reading :=
  readAs .text textLiteral core

/-- A text as an address; any other value as it is. -/
def asAddress : Value → Value
  | .text s => .address s
  | v => v

/-- An address; an evaluated text counts as one. -/
def address (core : Reading) : Reading :=
  readAs .address addressLiteral fun e => asAddress <$> core e

/-- The value of a pair: an atom as text, a list by evaluation. -/
def pairValue (core : Reading) : Reading
  | .atom s => pure (.text s)
  | .list es => core (.list es)

/-- Reads pairs of a key and a value into entries; `whole` is the operand they are from. -/
def readPairs (core : Reading) (whole : Expr) :
    List Expr → Entries Value → Action (Entries Value)
  | [], entries => pure entries
  | .list [.atom key, value] :: pairs, entries => do
    let v ← pairValue core value
    readPairs core whole pairs (entries.put key v)
  | pair :: _, _ => .fail (.kindMismatch .map (.expr whole) (.expr pair))

/-- A map, from a list of pairs. -/
def map (core : Reading) : Reading := fun e =>
  .map <$> readPairs core e e.items []

end Scenario.Operand
