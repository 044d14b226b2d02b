import Scenario.Operand
import Scenario.Vocabulary

/-!
# Queries of ERC-20 tokens

Read-only queries of a token contract, answered by the client of the world. Operands are
addresses, read with the evaluation `core` to fall back to.
-/

namespace Scenario.Erc20

/-- The text that a method of a token answers. -/
def query (token method : String) (args : List String) : Action String := do
  .ofExcept (((← Action.world).client.call token method args).mapError .client)

/-- The number that a method of a token answers. -/
def queryNumber (token method : String) (args : List String) : Action Value := do
  let raw ← query token method args
  match Decimal.readNumber raw with
  | .ok v => return .number v
  | .error _ => .fail (.client (.malformed method raw))

/-- The addresses of some parameters. -/
def addresses (args : Arguments) : List String → Except Failure (List String)
  | [] => .ok []
  | name :: names => do
    let a ← args.address name
    return a :: (← addresses args names)

/-- A command that asks the token in its first operand about the addresses in the others. -/
def command (core : Reading) (name description : String) (others : List String)
    (ask : String → List String → Action Value) : Command where
  name
  description
  params := ("token" :: others).map fun p => { name := p, reading := Operand.address core }
  body args := do
    let token ← .ofExcept (args.address "token")
    ask token (← .ofExcept (addresses args others))

/-- The queries of a token. -/
def commands (core : Reading) : List Command :=
  [ command core "TotalSupply" "Total token supply, e.g. `Erc20 TotalSupply ZRX`." []
      (queryNumber · "totalSupply" ·),
    command core "TokenBalance" "Token balance of `owner`." ["owner"]
      (queryNumber · "balanceOf" ·),
    command core "Allowance" "Amount `spender` may transfer on behalf of `owner`."
      ["owner", "spender"] (queryNumber · "allowance" ·),
    command core "Name" "" [] fun token args => .text <$> query token "name" args,
    command core "Symbol" "" [] fun token args => .text <$> query token "symbol" args,
    command core "Decimals" "" [] (queryNumber · "decimals" ·),
    command core "Address" "The token's address." [] fun token _ => pure (.address token) ]

theorem fault?_commands (core : Reading) : Vocabulary.fault? "Erc20" (commands core) = none := by
  simp [commands, command, Vocabulary.fault?, Command.fault?, Command.paramFault?,
    Param.required, Text.isBlankText]
  decide

/-- The vocabulary of the queries. -/
def vocabulary (core : Reading) : Vocabulary :=
  ⟨"Erc20", commands core, Vocabulary.faultless_of_fault? (fault?_commands core)⟩

end Scenario.Erc20
