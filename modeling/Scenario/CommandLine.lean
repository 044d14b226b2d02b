import Scenario.Evaluate
import Scenario.Json.Written
import Scenario.Settings.Source

/-!
# The command line

The arguments name a mode: evaluate an expression, show the manual or a part of it, or
show the version. Output is text or JSON; a quiet run shows nothing at all. What a run
writes and its exit code are computed from the arguments and the file that the mode
needs, if any.

The options `--output` and `--quiet` may stand before and after the mode's name, once on
each side; after it they win. Two dashes end the options.
-/

namespace Scenario.CommandLine

/-- The forms of output. -/
inductive Output where
  | text
  | json
deriving DecidableEq, Inhabited, Repr

/-- What to do. -/
inductive Mode where
  | eval (src : String) (world : Option String)
  | help (path : List String)
  | version
deriving DecidableEq, Inhabited, Repr

/-- What to do, and how to report on it. -/
structure Job where
  mode : Mode
  output : Output
  quiet : Bool
deriving DecidableEq, Inhabited, Repr

/-! ## Arguments -/

/-- The options that may stand on one side of the mode's name. -/
structure Flags where
  output : Option Output
  quiet : Bool
deriving Inhabited, Repr

/-- An argument as the options see it. -/
inductive Item where
  /-- An option with the value that stands behind an equals sign. -/
  | option (name : String) (value : Option String)
  /-- Two dashes alone. -/
  | endOfOptions
  | operand (text : String)
deriving Inhabited, Repr

/-- Tells options from operands. A dash alone is an operand. -/
def item (arg : String) : Item :=
  match arg.toList with
  | ['-', '-'] => .endOfOptions
  | '-' :: '-' :: r =>
    let name := r.takeWhile (· != '=')
    let value := if r.any (· == '=') then some (String.ofList (r.drop (name.length + 1))) else none
    .option ("--" ++ String.ofList name) value
  | '-' :: _ :: _ => .option arg none
  | _ => .operand arg

/-- The value of an option: behind its equals sign, or else the next argument; and the arguments
that are left. -/
def optionValue (value : Option String) (rest : List String) : Option (String × List String) :=
  match value, rest with
  | some v, _ => some (v, rest)
  | none, arg :: rest' =>
    match item arg with
    | .operand v => some (v, rest')
    | _ => none
  | none, [] => none

/-- The form of output with a name. -/
def output? (name : String) : Option Output :=
  if name = "text" then some .text else if name = "json" then some .json else none

/-- Takes an option of either side, if it is one: the options with it, and the arguments that are
left. -/
def takeFlag (flags : Flags) (name : String) (value : Option String) (rest : List String) :
    Option (Flags × List String) := do
  if name = "--output" ∧ flags.output.isNone then
    let (v, rest) ← optionValue value rest
    return ({ flags with output := some (← output? v) }, rest)
  else if name = "--quiet" ∧ value.isNone ∧ !flags.quiet then
    return ({ flags with quiet := true }, rest)
  else none

/-- What stands after the name of a mode. -/
structure Operands where
  flags : Flags
  world : Option String
  /-- The operands, last first. -/
  texts : List String
deriving Inhabited, Repr

/-- Takes the arguments after the name of a mode; `takesWorld` says whether it may name a file.
The first argument bounds their number. -/
def takeOperands (takesWorld : Bool) : Nat → Operands → List String → Option Operands
  | _, ops, [] => some ops
  | 0, _, _ :: _ => none
  | n + 1, ops, arg :: rest =>
    match item arg with
    | .operand s => takeOperands takesWorld n { ops with texts := s :: ops.texts } rest
    | .endOfOptions => some { ops with texts := rest.reverse ++ ops.texts }
    | .option name value =>
      if takesWorld ∧ name = "--world" ∧ ops.world.isNone then do
        let (v, rest) ← optionValue value rest
        if v = "" then none
        else takeOperands takesWorld n { ops with world := some v } rest
      else do
        let (flags, rest) ← takeFlag ops.flags name value rest
        takeOperands takesWorld n { ops with flags } rest

/-- The job of a mode whose options on both sides are known. -/
def job (before : Flags) (ops : Operands) (mode : Mode) : Job where
  mode
  output := (ops.flags.output.or before.output).getD .text
  quiet := before.quiet || ops.flags.quiet

/-- The job of a named mode with its arguments. -/
def named? (before : Flags) (name : String) (args : List String) : Option Job := do
  if name = "eval" then
    let ops ← takeOperands true args.length ⟨⟨none, false⟩, none, []⟩ args
    match ops.texts with
    | [src] => return job before ops (.eval src ops.world)
    | _ => none
  else if name = "help" then
    let ops ← takeOperands false args.length ⟨⟨none, false⟩, none, []⟩ args
    return job before ops (.help ops.texts.reverse)
  else none

/-- The job of all arguments, the options before the mode's name being known so far; the first
argument bounds their number. -/
def takeJob : Nat → Flags → List String → Option Job
  | 0, _, _ => none
  | _, _, [] => none
  | n + 1, before, arg :: rest =>
    match item arg with
    | .operand name => named? before name rest
    | .endOfOptions => none
    | .option name value =>
      if (name = "--version" ∧ value.isNone) ∨ "-V".isPrefixOf name then
        some ⟨.version, .text, false⟩
      else do
        let (before, rest) ← takeFlag before name value rest
        takeJob n before rest

/-- The job that the arguments ask for, if they can be understood. -/
def job? (args : List String) : Option Job :=
  takeJob args.length ⟨none, false⟩ args

/-! ## Runs -/

/-- What a run writes, and its exit code. -/
structure Outcome where
  code : Nat
  out : String
  err : String
deriving DecidableEq, Inhabited, Repr

/-- The version that the program reports. -/
def version : String := "scenario 0.1.0"

/-- What is shown when the arguments cannot be understood. -/
def usage : String :=
  "usage: scenario [--output text|json] [--quiet] eval EXPRESSION [--world FILE]\n"
    ++ "       scenario [--output text|json] [--quiet] help [COMMAND...]\n"

/-- A run that ends well. -/
def success (quiet : Bool) (out : String) : Outcome :=
  ⟨0, if quiet then "" else out, ""⟩

/-- A run that ends with an error. -/
def failure (output : Output) (quiet : Bool) (message : String) : Outcome :=
  let message := "error: " ++ message
  let err := match output with
    | .text => message
    | .json => (Json.object [("error", .text message)]).compact
  ⟨1, "", if quiet then "" else err ++ "\n"⟩

/-- The settings that an evaluation starts from; `content` is what reading a file yields. -/
def settings (content : String → Except String String) :
    Option String → Except ConfigFault Settings
  | none => .ok .default
  | some path => Settings.ofFile path (content path)

/-- The value of a command in the world that a file describes; the host's clock stands at
`now`. -/
def evaluateWith (content : String → Except String String) (now : Int) (world : Option String)
    (e : Expr) : Except Failure Value := do
  let s ← (settings content world).mapError .config
  let w ← s.toWorld.mapError .config
  (evaluate e { w with hostNow := now }).1

/-- The manual of all commands, or the part of it that a path leads to. -/
def manualText (m : Manual) : List String → Except Failure String
  | [] => m.text.mapError .vocabulary
  | [name] => do
    match ← (m.textFor name).mapError .vocabulary with
    | some s => return s
    | none => throw (.unknownCommand m.title name)
  | name :: path =>
    match m.nested? name with
    | some (.ok m') => manualText m' path
    | some (.error f) => .error (.vocabulary f)
    | none => .error (.unknownCommand m.title name)

/-- A value as it is reported. -/
def report (output : Output) (e : Expr) (v : Value) : String :=
  match output with
  | .text => v.shown
  | .json => (Json.object [("expression", .text e.text), ("value", v.toJson)]).pretty

/-- Runs a job; `content` is what reading a file yields, and the host's clock stands at `now`. -/
def perform (content : String → Except String String) (now : Int) (j : Job) : Outcome :=
  match j.mode with
  | .version => ⟨0, version ++ "\n", ""⟩
  | .eval src world =>
    match readCommand src with
    | .error e => failure j.output j.quiet e.message
    | .ok e =>
      match evaluateWith content now world e with
      | .error f => failure j.output j.quiet f.message
      | .ok v => success j.quiet (report j.output e v ++ "\n")
  | .help path =>
    match manualText Dialect.core.commands.manual path with
    | .error f => failure j.output j.quiet f.message
    | .ok s =>
      match j.output with
      | .text => success j.quiet s
      | .json => success j.quiet ((Json.object [("help", .text s)]).compact ++ "\n")

/-- A run with the given arguments. -/
def run (content : String → Except String String) (now : Int) (args : List String) : Outcome :=
  match job? args with
  | none => ⟨2, "", usage⟩
  | some j => perform content now j

/-- The file that a job needs. -/
def Job.file? (j : Job) : Option String :=
  match j.mode with
  | .eval _ world => world
  | _ => none

end Scenario.CommandLine
