/-!
# Lines of a text

A line ends at a newline; one carriage return just before the newline belongs to
the line end. The text after the last newline is a line if it is not empty, and
it keeps its carriage returns.
-/

namespace Scenario.Text

/-- Puts a character in front of the first line, which is opened if there is none. -/
def consFirst (c : Char) : List (List Char) → List (List Char)
  | [] => [[c]]
  | l :: ls => (c :: l) :: ls

/-- The lines of a text, without their line ends. -/
def lines : List Char → List (List Char)
  | [] => []
  | '\n' :: r => [] :: lines r
  | '\r' :: '\n' :: r => [] :: lines r
  | c :: r => consFirst c (lines r)

end Scenario.Text
