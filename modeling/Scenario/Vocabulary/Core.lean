import Scenario.Operand
import Scenario.Value.Agreement
import Scenario.Vocabulary

/-!
# The core commands

Constants, literals of each kind, what the world has on record, collections, spans of
time and the comparison of values. Some commands leave an operand unread and read it in
their body, so that it is their own rule that decides how an atom is taken.

The commands evaluate operands through `core`, and `Erc20` hands its operands on to
`erc20`.
-/

namespace Scenario.Core

/-- The largest unsigned number of 256 bits. -/
def maxWord : Nat := Nat.pow 2 256 - 1

/-- A command without parameters that always has the same value. -/
def constant (name description : String) (v : Value) : Command where
  name
  description
  body _ := pure v

/-- A command with one operand that the body reads itself. -/
def deferred (name description param : String) (reading : Reading) : Command where
  name
  description
  params := [{ name := param, reading := Operand.event }]
  body args := do reading (← .ofExcept (args.event param))

/-- A number of either sign. -/
def negated (core : Reading) : Reading := fun e => do
  let v ← Operand.number core e
  return .number (← .ofExcept (Operand.content e v)).neg

/-- The value of `Precisely` for a written number. -/
def precisely (s : String) : Except Failure Value :=
  match Decimal.readDecimal s with
  | .ok v => .ok (.precise v (Decimal.figures s))
  | .error f => .error (.literal .precise s (.number f))

/-- The value of one argument. -/
def argument (name : String) (args : Arguments) : Action Value := do
  return (← .ofExcept (args.take name)).1

/-- The address of the last contract on record. -/
def lastContract (w : World) : Except Failure Value :=
  match w.lastContract with
  | some a => .ok (.address a)
  | none => .error (.precondition .lastContract)

/-- The gas that the last invocation on record has used. -/
def lastGas (w : World) : Except Failure Value :=
  match w.lastInvocation with
  | none => .error (.precondition .lastInvocation)
  | some i =>
    match i.gasUsed with
    | some gas => .ok (.number gas)
    | none => .error (.precondition (.receipt i.function))

/-- The client's answer. -/
def answer {α : Type} (r : Except ClientFailure α) : Except Failure α :=
  r.mapError .client

/-- The first value if it counts as true, otherwise that of the second operand. -/
def firstTrue (core : Reading) (args : Arguments) : Action Value := do
  let (v, args) ← .ofExcept (args.take "val")
  if v.truthy then return v
  core (← .ofExcept (args.event "def"))

/-- Whether the two arguments agree. -/
def equal (args : Arguments) : Except Failure Value := do
  let given ← args.value "given"
  let expected ← args.value "expected"
  return .bool (expected.agrees given)

/-- A span of time in whole seconds, from its number of units of so many seconds each. -/
def span (core : Reading) (name description param : String) (unit : Nat) : Command where
  name
  description
  params := [{ name := param, reading := Operand.number core }]
  body args := do
    let n ← .ofExcept (args.number param)
    return .number (n.mul (.ofInt unit)).roundWhole

/-- The unix time so many seconds from now. -/
def fromNow (args : Arguments) : Action Value := do
  let n ← .ofExcept (args.number "seconds")
  return .number (n.add (.ofInt (← Action.world).now)).roundWhole

/-- The core commands. -/
def commands (core erc20 : Reading) (erc20Manual : Manual) : List Command :=
  [ constant "True" "Boolean true." (.bool true),
    constant "False" "Boolean false." (.bool false),
    constant "Zero" "The number 0." (.number ⟨0, 0⟩),
    constant "Max" "The largest unsigned 256-bit integer, 2^256 - 1." (.number ⟨maxWord, 0⟩),
    constant "Some" "A generous amount: 100e18." (.number ⟨100, -18⟩),
    constant "Little" "A small amount: 100e10." (.number ⟨100, -10⟩),
    deferred "Exactly" "The given number, e.g. `Exactly 1.5`." "amt" (Operand.number core),
    deferred "Hex" "A hex string, kept verbatim, e.g. `Hex 0xffff`." "str" (Operand.text core),
    deferred "String" "A string, kept verbatim." "str" (Operand.text core),
    deferred "Exp" "A number scaled by the mantissa, e.g. `Exp 1.5` is 1.5e18." "amt"
      (Operand.scaled core),
    deferred "Percent" "A percentage as a scaled number, e.g. `Percent 0.5`." "amt"
      (Operand.percent core),
    deferred "Neg" "The negation of a number." "amt" (negated core),
    { name := "Precisely"
      description := "A number that compares equal only up to its written significant "
        ++ "figures, e.g. `Precisely 5.1000` matches 5.10004."
      params := [{ name := "amt", reading := Operand.text core }]
      body := fun args => .ofExcept (do precisely (← args.text "amt")) },
    constant "Anything" "Matches any value in `Equal`." .anything,
    constant "Nothing" "Matches no value in `Equal`." .nothing,
    { name := "Address"
      description := "An address literal, `zero`, or address book alias."
      params := [{ name := "addr", reading := Operand.address core }]
      body := argument "addr" },
    { name := "LastContract"
      description := "The address of the most recently deployed contract."
      body := fun _ => do .ofExcept (lastContract (← .world)) },
    { name := "LastGas"
      description := "Gas used by the most recent invocation."
      body := fun _ => do .ofExcept (lastGas (← .world)) },
    { name := "List"
      description := "A list of values, e.g. `List (Exactly 1) True`."
      params := [{ name := "els", reading := core, rest := true, each := true }]
      body := argument "els" },
    { name := "Map"
      description := "A map from `(key value)` pairs, e.g. `Map (name Geoff)`."
      params := [{ name := "pairs", reading := Operand.map core, rest := true }]
      body := argument "pairs" },
    { name := "Default"
      description := "`val` if truthy, otherwise the lazily evaluated `def`."
      params := [{ name := "val", reading := core }, { name := "def", reading := Operand.event }]
      body := firstTrue core },
    span core "Minutes" "Minutes in seconds." "minutes" 60,
    span core "Hours" "Hours in seconds." "hours" 3600,
    span core "Days" "Days in seconds." "days" 86400,
    span core "Weeks" "Weeks in seconds." "weeks" 604800,
    span core "Years" "365-day years in seconds." "years" 31536000,
    { name := "FromNow"
      description := "Unix time `seconds` from now, e.g. `FromNow (Days 2)`."
      params := [{ name := "seconds", reading := Operand.number core }]
      body := fromNow },
    { name := "Network"
      description := "The configured network name."
      body := fun _ => do return .text (← Action.world).network },
    { name := "EtherBalance"
      description := "Native balance of an address."
      params := [{ name := "address", reading := Operand.address core }]
      body := fun args => do
        let a ← .ofExcept (args.address "address")
        return .number (← .ofExcept (answer ((← Action.world).client.balance a))) },
    { name := "Equal"
      description := "Whether `given` matches `expected`."
      params := [{ name := "given", reading := core }, { name := "expected", reading := core }]
      body := fun args => .ofExcept (equal args) },
    { name := "Erc20"
      description := "ERC-20 token reads, e.g. `Erc20 TotalSupply ZRX`."
      params := [{ name := "res", reading := erc20, rest := true }]
      body := argument "res"
      nested := some (.ok erc20Manual) } ]

theorem fault?_commands (core erc20 : Reading) (m : Manual) :
    Vocabulary.fault? "Core" (commands core erc20 m) = none := by
  simp [commands, constant, deferred, span, Vocabulary.fault?, Command.fault?,
    Command.paramFault?, Param.required, Text.isBlankText]
  decide

/-- The vocabulary of the core commands. -/
def vocabulary (core erc20 : Reading) (erc20Manual : Manual) : Vocabulary :=
  ⟨"Core", commands core erc20 erc20Manual,
    Vocabulary.faultless_of_fault? (fault?_commands core erc20 erc20Manual)⟩

end Scenario.Core
