import Scenario.Decimal.Literal

/-!
# Faults of a configuration
-/

namespace Scenario

/-- The formats a configuration is written in. -/
inductive Format where
  | json
  | toml
deriving DecidableEq, Inhabited, Repr

/-- The name of a format in messages. -/
def Format.name : Format → String
  | json => "JSON"
  | toml => "TOML"

/-- Why a configuration gives no world. -/
inductive ConfigFault where
  | unreadable (path reason : String)
  /-- The text does not follow the rules of its format. -/
  | malformed (format : Format)
  /-- The text follows its format, but does not have the shape of a configuration. -/
  | misshapen (format : Format)
  | invalidAddress (name address : String)
  | unknownAddress (name : String)
  | invalidBalance (name : String) (fault : Decimal.LiteralFault)
deriving DecidableEq, Inhabited, Repr

/-- The wording of a fault. -/
def ConfigFault.message : ConfigFault → String
  | unreadable path reason => "cannot read " ++ path ++ ": " ++ reason
  | malformed format => "invalid " ++ format.name ++ ": malformed document"
  | misshapen format => "invalid " ++ format.name ++ ": not a world configuration"
  | invalidAddress name address => "invalid address for alias '" ++ name ++ "': " ++ address
  | unknownAddress name => "unknown address " ++ name
  | invalidBalance name fault => "balance for " ++ name ++ ": " ++ fault.message

end Scenario
