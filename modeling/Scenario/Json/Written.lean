import Scenario.Json

/-!
# Writing JSON

Two layouts: `compact` has no blanks, `pretty` puts each item and member on a line of its
own, indented by two spaces for each array or object around it. An empty array or object
is written on one line in both.
-/

namespace Scenario.Json

/-- A number below 16 as a hexadecimal digit. -/
def hexDigit (n : Nat) : Char :=
  (Nat.toDigits 16 n).headD '0'

/-- One character of a string. -/
def writtenChar (c : Char) : String :=
  match c with
  | '"' => "\\\""
  | '\\' => "\\\\"
  | '\x08' => "\\b"
  | '\x0c' => "\\f"
  | '\n' => "\\n"
  | '\r' => "\\r"
  | '\t' => "\\t"
  | c =>
    if c.toNat < 0x20 then
      String.ofList ['\\', 'u', '0', '0', hexDigit (c.toNat / 16), hexDigit (c.toNat % 16)]
    else String.singleton c

/-- A string in quotes. -/
def writtenText (s : String) : String :=
  "\"" ++ String.join (s.toList.map writtenChar) ++ "\""

mutual

/-- The value without any blanks. -/
def compact : Json → String
  | null => "null"
  | bool true => "true"
  | bool false => "false"
  | int n => toString n
  | real s => s
  | text s => writtenText s
  | array items => "[" ++ compactItems items ++ "]"
  | object members => "\x7b" ++ compactMembers members ++ "\x7d"
  | garbled => "null"

/-- Items with commas between them. -/
def compactItems : List Json → String
  | [] => ""
  | [v] => compact v
  | v :: vs => compact v ++ "," ++ compactItems vs

/-- Members with commas between them. -/
def compactMembers : List (String × Json) → String
  | [] => ""
  | [(k, v)] => writtenText k ++ ":" ++ compact v
  | (k, v) :: ms => writtenText k ++ ":" ++ compact v ++ "," ++ compactMembers ms

end

/-- The start of a line inside `n` arrays and objects. -/
def newLine (n : Nat) : String :=
  "\n" ++ String.ofList (List.replicate (2 * n) ' ')

mutual

/-- The value over several lines, inside `n` arrays and objects. -/
def prettyAt (n : Nat) : Json → String
  | array [] => "[]"
  | array items => "[" ++ prettyItems (n + 1) items ++ newLine n ++ "]"
  | object [] => "\x7b\x7d"
  | object members => "\x7b" ++ prettyMembers (n + 1) members ++ newLine n ++ "\x7d"
  | v => compact v

/-- Items, each on a line of its own. -/
def prettyItems (n : Nat) : List Json → String
  | [] => ""
  | [v] => newLine n ++ prettyAt n v
  | v :: vs => newLine n ++ prettyAt n v ++ "," ++ prettyItems n vs

/-- Members, each on a line of its own. -/
def prettyMembers (n : Nat) : List (String × Json) → String
  | [] => ""
  | [(k, v)] => newLine n ++ writtenText k ++ ": " ++ prettyAt n v
  | (k, v) :: ms => newLine n ++ writtenText k ++ ": " ++ prettyAt n v ++ "," ++ prettyMembers n ms

end

/-- The value over several lines. -/
def pretty (v : Json) : String :=
  prettyAt 0 v

end Scenario.Json
