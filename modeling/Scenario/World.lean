import Scenario.Address
import Scenario.Settings.Fault
import Scenario.Text.Blank
import Scenario.Value
import Scenario.World.Client

/-!
# Worlds

The state that evaluation can see: the network's name, the address book, the last contract
and invocation on record, the client, the fixed-point scale and the clock. Aliases of the
address book are kept in lower case, addresses in their canonical form. What the client and
the host's clock would answer is part of the state, so it is the same throughout an
evaluation.
-/

namespace Scenario

/-- The most recent invocation; it has a gas figure once its receipt is in. -/
structure Invocation where
  function : String
  gasUsed : Option Decimal
deriving Inhabited, Repr

/-- The state that evaluation can see. -/
structure World where
  network : String
  /-- Aliases in lower case with their canonical addresses. -/
  addresses : Entries String
  lastContract : Option String
  lastInvocation : Option Invocation
  client : Client
  /-- The fixed-point scale: a scaled number is multiplied by ten to this power. -/
  mantissaDecimals : Nat
  /-- The unix time at which the clock is stopped, if it is. -/
  pinnedNow : Option Int
  /-- The unix time that the host's clock shows. As a part of the world it stands still while an
  expression is evaluated; it may go on in between. -/
  hostNow : Int

namespace World

/-- The fixed-point scale of a world that sets none. -/
def defaultMantissaDecimals : Nat := 18

/-- A world of the named network with nothing on record and a client that knows nothing. -/
def offline (network : String) : World where
  network
  addresses := []
  lastContract := none
  lastInvocation := none
  client := Fixtures.empty.client
  mantissaDecimals := defaultMantissaDecimals
  pinnedNow := none
  hostNow := 0

/-- The current unix time. -/
def now (w : World) : Int :=
  w.pinnedNow.getD w.hostNow

/-- Enters an alias into the address book: whether that was possible, and the world it leaves. -/
def register (w : World) (name address : String) : Except ConfigFault Unit × World :=
  match canonicalAddress? address with
  | none => (.error (.invalidAddress name address), w)
  | some a => (.ok (), { w with addresses := w.addresses.put (Text.fold name) a })

/-- The world with an alias in its address book. -/
def addAddress (w : World) (name address : String) : Except ConfigFault World :=
  let (answer, w') := w.register name address
  answer.map fun _ => w'

/-- The address that a name stands for: the zero address by the name `zero`, a written address
itself, or the address of an alias. -/
def resolve? (w : World) (name : String) : Option String :=
  let name := Text.trim name
  if Text.sameFold name "zero" then some zeroAddress
  else (canonicalAddress? name).or (w.addresses.get? (Text.fold name))

/-- Puts a contract on record. -/
def recordContract (w : World) (address : String) : World :=
  { w with lastContract := some address }

/-- Puts an invocation on record. -/
def recordInvocation (w : World) (i : Invocation) : World :=
  { w with lastInvocation := some i }

end World

end Scenario
