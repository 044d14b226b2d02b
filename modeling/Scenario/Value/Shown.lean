import Scenario.Value
import Scenario.Decimal.Plain
import Scenario.Expr.Written
import Scenario.Json
import Scenario.Text.Quoted

/-!
# Values as text and as JSON

`shown` names the kind and the content of a value, `toJson` gives its content to other
programs. Numbers are written plainly in both, as text, so that no digit is lost.
-/

namespace Scenario.Value

mutual

/-- The value as text. -/
def shown : Value → String
  | bool b => "Bool(" ++ (if b then "true" else "false") ++ ")"
  | number v => "Number(" ++ v.plain ++ ")"
  | scaled v => "ScaledNumber(" ++ v.plain ++ ")"
  | percent v => "PercentNumber(" ++ v.plain ++ ")"
  | precise v n => "PreciseNumber(" ++ v.plain ++ ", " ++ toString n ++ " sig figs)"
  | text s => "String(" ++ Text.quoted s ++ ")"
  | address s => "Address(" ++ s ++ ")"
  | list items => "List[" ++ shownItems items ++ "]"
  | map entries => "Map\x7b" ++ shownEntries entries ++ "\x7d"
  | anything => "Anything"
  | nothing => "Nothing"
  | event e => "Event(" ++ e.text ++ ")"

/-- Values with commas between them. -/
def shownItems : List Value → String
  | [] => ""
  | [v] => shown v
  | v :: vs => shown v ++ ", " ++ shownItems vs

/-- Entries with commas between them. -/
def shownEntries : List (String × Value) → String
  | [] => ""
  | [(k, v)] => k ++ ": " ++ shown v
  | (k, v) :: es => k ++ ": " ++ shown v ++ ", " ++ shownEntries es

end

mutual

/-- The value as JSON. -/
def toJson : Value → Json
  | bool b => .bool b
  | number v => .text v.plain
  | scaled v => .object [("scaled", .text v.plain)]
  | percent v => .object [("percent", .text v.plain)]
  | precise v n => .object [("precise", .text v.plain), ("sig_figs", .int n)]
  | text s => .text s
  | address s => .object [("address", .text s)]
  | list items => .array (itemsToJson items)
  | map entries => .object (entriesToJson entries)
  | anything => .text "Anything"
  | nothing => .text "Nothing"
  | event e => .object [("event", .text e.text)]

/-- Values as items of an array. -/
def itemsToJson : List Value → List Json
  | [] => []
  | v :: vs => toJson v :: itemsToJson vs

/-- Entries as members of an object. -/
def entriesToJson : List (String × Value) → List (String × Json)
  | [] => []
  | (k, v) :: es => (k, toJson v) :: entriesToJson es

end

end Scenario.Value
