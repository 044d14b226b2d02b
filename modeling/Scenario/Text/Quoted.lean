import Scenario.Text.Shown

/-!
# Texts shown in double quotes

A text inside a message is shown between double quotes so that its ends and its
invisible characters can be seen: the quote, the backslash and the common control
characters have short escapes, and every other character that is not shown as it
is (`isShown`) is written by its code point in hexadecimal.
-/

namespace Scenario.Text

/-- One character of a quoted text. -/
def quotedChar (c : Char) : String :=
  match c with
  | '\x00' => "\\0"
  | '\t' => "\\t"
  | '\r' => "\\r"
  | '\n' => "\\n"
  | '"' => "\\\""
  | '\\' => "\\\\"
  | c =>
    if isShown c then String.singleton c
    else "\\u\x7b" ++ String.ofList (Nat.toDigits 16 c.toNat) ++ "\x7d"

/-- The text in double quotes. -/
def quoted (s : String) : String :=
  "\"" ++ String.join (s.toList.map quotedChar) ++ "\""

end Scenario.Text
