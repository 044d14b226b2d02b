import Scenario.Expr
import Scenario.Text.Blank

/-!
# The written form of an expression

An atom is written as it is unless that would not read back as one word; then it is
written in quotes, with escapes for the quote, the backslash, the newline and the tab.
A list is written in parentheses with one space between items.
-/

namespace Scenario

open Text (isBlank)

namespace Expr

/-- Whether a character ends a word or has a meaning of its own inside a quoted atom. -/
def needsQuotes (c : Char) : Bool :=
  isBlank c || c == '(' || c == ')' || c == '"' || c == '\\'

/-- Whether an atom is written without quotes. -/
def isBare : List Char → Bool
  | [] => false
  | '-' :: '-' :: _ => false
  | cs => !cs.any needsQuotes

/-- One character of a quoted atom. -/
def escaped : Char → List Char
  | '"' => ['\\', '"']
  | '\\' => ['\\', '\\']
  | '\n' => ['\\', 'n']
  | '\t' => ['\\', 't']
  | c => [c]

/-- The characters of an atom in quotes. -/
def quotedAtom (cs : List Char) : List Char :=
  '"' :: (cs.flatMap escaped ++ ['"'])

/-- The written form of an atom. -/
def writtenAtom (cs : List Char) : List Char :=
  if isBare cs then cs else quotedAtom cs

mutual

/-- The written form of an expression. -/
def written : Expr → List Char
  | atom s => writtenAtom s.toList
  | list xs => '(' :: (writtenItems xs ++ [')'])

/-- The written forms of a row of expressions, one space apart. -/
def writtenItems : List Expr → List Char
  | [] => []
  | [x] => written x
  | x :: xs => written x ++ ' ' :: writtenItems xs

end

/-- The written form of an expression as a text. -/
def text (e : Expr) : String :=
  String.ofList (written e)

@[simp]
theorem toList_text (e : Expr) : e.text.toList = written e := by
  simp [text]

end Expr

end Scenario
