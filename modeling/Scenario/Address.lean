import Scenario.Text.Fold
import Scenario.Text.Hex

/-!
# Addresses

An address is written as `0x` and forty hexadecimal digits; its canonical form has them in
lower case.
-/

namespace Scenario

/-- The canonical form of a written address, and nothing for any other text. -/
def canonicalAddress? (s : String) : Option String :=
  match Text.afterHexMark? s.toList with
  | none => none
  | some r =>
    if r.length = 40 ∧ r.all Text.isHexDigit then
      some (String.ofList ('0' :: 'x' :: r.map Char.toLower))
    else none

end Scenario
