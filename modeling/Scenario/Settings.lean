import Scenario.Decimal.Literal
import Scenario.World

/-!
# Settings of a world

What a configuration says about a world, and the world it sets up: addresses are entered
in the order of their aliases, then balances and calls are fixed under the addresses that
the finished book gives to their names. The first entry that cannot be used is reported.
-/

namespace Scenario

/-- The fixed result of a call. -/
structure CallSetting where
  address : String
  method : String
  args : List String
  result : String
deriving DecidableEq, Inhabited, Repr

/-- What a configuration says. -/
structure Settings where
  network : String
  /-- Aliases with their addresses. -/
  addresses : Entries String
  mantissaDecimals : Nat
  now : Option Int
  /-- Names with the amounts they hold. -/
  balances : Entries String
  calls : List CallSetting
deriving Inhabited, Repr

namespace Settings

/-- What holds where a configuration says nothing. -/
def default : Settings where
  network := "development"
  addresses := []
  mantissaDecimals := World.defaultMantissaDecimals
  now := none
  balances := []
  calls := []

/-- Enters aliases into the address book. -/
def enterAddresses : Entries String → World → Except ConfigFault World
  | [], w => .ok w
  | (name, address) :: rest, w => do enterAddresses rest (← w.addAddress name address)

/-- The address of a name in the book of a world. -/
def resolve (w : World) (name : String) : Except ConfigFault String :=
  match w.resolve? name with
  | some a => .ok a
  | none => .error (.unknownAddress name)

/-- Fixes balances. -/
def fixBalances (w : World) : Entries String → Fixtures → Except ConfigFault Fixtures
  | [], f => .ok f
  | (name, amount) :: rest, f => do
    let a ← resolve w name
    let v ← (Decimal.readNumber amount).mapError (.invalidBalance name)
    fixBalances w rest (f.withBalance a v)

/-- Fixes the results of calls; an argument that names an address stands for it. -/
def fixCalls (w : World) : List CallSetting → Fixtures → Except ConfigFault Fixtures
  | [], f => .ok f
  | c :: rest, f => do
    let a ← resolve w c.address
    let args := c.args.map fun arg => (w.resolve? arg).getD arg
    fixCalls w rest (f.withCall a c.method args c.result)

/-- The world that the settings describe. -/
def toWorld (s : Settings) : Except ConfigFault World := do
  let blank := { World.offline s.network with mantissaDecimals := s.mantissaDecimals }
  let w ← enterAddresses s.addresses blank
  let f ← fixBalances w s.balances .empty
  let f ← fixCalls w s.calls f
  return { w with client := f.client, pinnedNow := s.now }

end Settings

end Scenario
