import Scenario.Json
import Scenario.Settings

/-!
# Settings in a document

The settings that a document describes. A record may be written as an object, where other
members are passed over and a member of the record may not be repeated, or as an array of
its fields in order, where fields at the end may be left out. A table keeps the last value
of a repeated key.
-/

namespace Scenario.Settings

/-- The values of the named fields of a record, `none` for a field that is left out. Items of an
array beyond the fields are passed over if `surplus` says so, and not allowed otherwise. -/
def fields? (surplus : Bool) (names : List String) : Json → Option (List (Option Json))
  | .object ms =>
    if names.any fun n => 1 < ms.countP (·.1 == n) then none
    else some (names.map fun n => (ms.find? (·.1 == n)).map (·.2))
  | .array items =>
    if names.length < items.length && !surplus then none
    else some ((List.range names.length).map (items[·]?))
  | _ => none

/-- The content of a field, or what holds if it is left out. -/
def fieldOr {α : Type} (fallback : α) (decode? : Json → Option α) : Option Json → Option α
  | none => some fallback
  | some v => decode? v

/-- A text. -/
def text? : Json → Option String
  | .text s => some s
  | _ => none

/-- A whole number of 32 bits without sign. -/
def count? : Json → Option Nat
  | .int n => if fitsUnsigned 32 n then some n.toNat else none
  | _ => none

/-- A whole number of 64 bits, or nothing. -/
def time? : Json → Option (Option Int)
  | .null => some none
  | .int n => if fitsSigned 64 n then some (some n) else none
  | _ => none

/-- An array of values of one shape. -/
def array? {α : Type} (decode? : Json → Option α) : Json → Option (List α)
  | .array items => items.mapM decode?
  | _ => none

/-- A table of texts. -/
def table? : Json → Option (Entries String)
  | .object ms => do
    let entries ← ms.mapM fun (k, v) => (text? v).map (k, ·)
    return Entries.ofList entries
  | _ => none

/-- The fixed result of a call. -/
def call? (surplus : Bool) (v : Json) : Option CallSetting := do
  match ← fields? surplus ["address", "method", "args", "result"] v with
  | [some address, some method, args, some result] =>
    return {
      address := ← text? address
      method := ← text? method
      args := ← fieldOr [] (array? text?) args
      result := ← text? result }
  | _ => none

/-- The fixed balances and calls. -/
def fixtures? (surplus : Bool) (v : Json) : Option (Entries String × List CallSetting) := do
  match ← fields? surplus ["balances", "calls"] v with
  | [balances, calls] =>
    return (← fieldOr [] table? balances, ← fieldOr [] (array? (call? surplus)) calls)
  | _ => none

/-- The settings that a document describes. -/
def ofJson? (surplus : Bool) (v : Json) : Option Settings := do
  match ← fields? surplus ["network", "addresses", "mantissa_decimals", "now", "fixtures"] v with
  | [network, addresses, mantissa, now, fixtures] =>
    let (balances, calls) ← fieldOr ([], []) (fixtures? surplus) fixtures
    return {
      network := ← fieldOr default.network text? network
      addresses := ← fieldOr default.addresses table? addresses
      mantissaDecimals := ← fieldOr default.mantissaDecimals count? mantissa
      now := ← fieldOr default.now time? now
      balances
      calls }
  | _ => none

end Scenario.Settings
