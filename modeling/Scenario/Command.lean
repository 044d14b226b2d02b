import Scenario.Action
import Scenario.Command.Arguments
import Scenario.Manual

/-!
# Commands

A command has a name, parameters and a body. Its operands are bound to the parameters
from left to right, each operand being read the way its parameter says before the next is
looked at; the body then runs on the arguments.

A parameter with `rest` takes all remaining operands. A parameter with `each` reads each
item on its own: each remaining operand for a `rest` parameter, each item of its one
operand otherwise. A parameter with a default may go without an operand.
-/

namespace Scenario

/-- A way to read an operand as a value. -/
abbrev Reading := Expr → Action Value

/-- A parameter of a command. -/
structure Param where
  name : String
  reading : Reading
  rest : Bool := false
  each : Bool := false
  default? : Option Value := none

/-- How a parameter is written in a signature. -/
def Param.shown (p : Param) : String :=
  if p.rest then "..." ++ p.name
  else if p.each then "(" ++ p.name ++ "...)"
  else if p.default?.isSome then "[" ++ p.name ++ "]"
  else p.name

/-- Whether a parameter needs an operand of its own. -/
def Param.required (p : Param) : Bool :=
  !p.rest && p.default?.isNone

/-- A command. -/
structure Command where
  name : String
  description : String := ""
  params : List Param := []
  body : Arguments → Action Value
  /-- The manual of the vocabulary that the command leads into. -/
  nested : Option (Except VocabularyFault Manual) := none

namespace Command

/-- Whether the command goes by a name, whatever the case of its letters. -/
def isNamed (c : Command) (name : String) : Bool :=
  Text.sameFold c.name name

/-- The command with a description; blanks around the text are not part of it. -/
def described (c : Command) (text : String) : Command :=
  { c with description := Text.trim text }

/-- The name and the parameters, as shown to users. -/
def signature (c : Command) : String :=
  c.name ++ String.join (c.params.map fun p => " " ++ p.shown)

/-- How many operands the command takes. -/
def arity (c : Command) : Arity where
  least := c.params.countP Param.required
  most := if c.params.any Param.rest then none else some (c.params.countP (!Param.rest ·))

/-- Reads each of a row of operands. -/
def readEach (reading : Reading) : List Expr → Action (List Value)
  | [] => pure []
  | e :: es => do
    let v ← reading e
    let vs ← readEach reading es
    return v :: vs

/-- Reads all remaining operands for a parameter. -/
def readRest (p : Param) (operands : List Expr) : Action Argument :=
  if p.each then .several <$> readEach p.reading operands
  else .one <$> p.reading (.list operands)

/-- Reads one operand for a parameter. -/
def readOne (p : Param) (operand : Expr) : Action Argument :=
  if p.each then .several <$> readEach p.reading operand.items
  else .one <$> p.reading operand

/-- Binds operands to parameters from left to right. -/
def bindParams : List Param → List Expr → Arguments → Action Arguments
  | [], _, args => pure args
  | p :: ps, operands, args =>
    if p.rest then do
      let a ← readRest p operands
      bindParams ps [] (args.put p.name a)
    else
      match operands with
      | e :: es => do
        let a ← readOne p e
        bindParams ps es (args.put p.name a)
      | [] =>
        match p.default? with
        | some v => bindParams ps [] (args.put p.name (.one v))
        | none => .fail (.missingArgument p.name)

/-- Binds operands to the parameters, if their number fits. -/
def bind (c : Command) (operands : List Expr) : Action Arguments :=
  if c.arity.fits operands.length then bindParams c.params operands []
  else .fail (.arity c.arity operands.length)

/-- The first fault of a row of parameters that follows those named in `seen`, one of which may
have had a default. -/
def paramFault? (seen : List String) (defaulted : Bool) : List Param → Option CommandFault
  | [] => none
  | p :: ps =>
    if seen.contains p.name then some (.repeatedParam p.name)
    else if p.rest && !ps.isEmpty then some (.restNotLast p.name)
    else if p.rest && p.default?.isSome then some (.restWithDefault p.name)
    else if defaulted && p.required then some (.requiredAfterDefault p.name)
    else paramFault? (p.name :: seen) (defaulted || p.default?.isSome) ps

/-- The first fault of a command. -/
def fault? (c : Command) : Option CommandFault :=
  if Text.isBlankText c.name then some .blankName else paramFault? [] false c.params

/-- The command's section of the manual. -/
def manualEntry (c : Command) : ManualEntry :=
  .mk c.name c.signature c.description c.nested

end Command

end Scenario
