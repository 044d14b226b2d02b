import Scenario.Decimal
import Scenario.Entries
import Scenario.Text.Fold
import Scenario.Text.Hex

/-!
# Clients

A client answers questions about accounts and contracts. `Fixtures` is the client that
answers from fixed tables: addresses are looked up without regard to case, arguments of a
call likewise if they are written like a hexadecimal number, and the last entry made for a
question is its answer.
-/

namespace Scenario

/-- A question put to a client. -/
inductive Request where
  | balance
  | call (method : String) (args : List String)
deriving DecidableEq, Inhabited, Repr

/-- How a question is named in messages. -/
def Request.shown : Request → String
  | balance => "balance"
  | call method args => "call " ++ method ++ "(" ++ ", ".intercalate args ++ ")"

/-- Why a client has no usable answer. -/
inductive ClientFailure where
  | unavailable (request : Request) (target : String)
  | malformed (method response : String)
  | remote (message : String)
deriving DecidableEq, Inhabited, Repr

/-- The wording of a failure. -/
def ClientFailure.message : ClientFailure → String
  | unavailable request target => "no " ++ request.shown ++ " available for " ++ target
  | malformed method response => "malformed response from " ++ method ++ ": " ++ response
  | remote message => "remote client error: " ++ message

/-- Access to the system that a scenario runs against. That the answers are functions of the
question says that a client answers the same question alike, however often and in whatever order it
is asked, as long as it is the client of the world. -/
structure Client where
  /-- The native balance of an address. -/
  balance : String → Except ClientFailure Decimal
  /-- The result of reading a method of the contract at an address, as text. -/
  call : String → String → List String → Except ClientFailure String

/-- A call as the tables know it: the address and the arguments in normal form. -/
structure CallKey where
  address : String
  method : String
  args : List String
deriving DecidableEq, Inhabited, Repr

/-- The normal form of an argument: lower case if it is written like a hexadecimal number. -/
def normalArg (arg : String) : String :=
  if (Text.afterHexMark? arg.toList).isSome then Text.fold arg else arg

/-- The key under which a call is kept. -/
def CallKey.of (address method : String) (args : List String) : CallKey :=
  ⟨Text.fold address, method, args.map normalArg⟩

/-- Fixed balances and call results; the calls stand last first. -/
structure Fixtures where
  balances : Entries Decimal
  calls : List (CallKey × String)
deriving Inhabited, Repr

namespace Fixtures

/-- No answers. -/
def empty : Fixtures := ⟨[], []⟩

/-- Fixes the balance of an address. -/
def withBalance (f : Fixtures) (address : String) (amount : Decimal) : Fixtures :=
  { f with balances := f.balances.put (Text.fold address) amount }

/-- Fixes the result of a call. -/
def withCall (f : Fixtures) (address method : String) (args : List String) (result : String) :
    Fixtures :=
  { f with calls := (CallKey.of address method args, result) :: f.calls }

/-- The balance on record for an address. -/
def balance? (f : Fixtures) (address : String) : Option Decimal :=
  f.balances.get? (Text.fold address)

/-- The result on record for a call. -/
def call? (f : Fixtures) (address method : String) (args : List String) : Option String :=
  (f.calls.find? (·.1 == CallKey.of address method args)).map (·.2)

/-- The client that answers from these tables. -/
def client (f : Fixtures) : Client where
  balance address :=
    match f.balance? address with
    | some v => .ok v
    | none => .error (.unavailable .balance address)
  call address method args :=
    match f.call? address method args with
    | some s => .ok s
    | none => .error (.unavailable (.call method args) address)

end Fixtures

end Scenario
