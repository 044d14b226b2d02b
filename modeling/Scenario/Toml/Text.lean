import Scenario.Text.Hex

/-!
# Blanks, comments and strings of TOML

Everything here takes a run of characters and gives back what is left of it. A string is
given without its opening quotes and leaves what follows its closing quotes.
-/

namespace Scenario.Toml

open Text (hexValue)

/-- Whether a character is a blank within a line. -/
def isSpace (c : Char) : Bool :=
  c == ' ' || c == '\t'

/-- What follows the blanks at the start. -/
def skipSpace (cs : List Char) : List Char :=
  cs.dropWhile isSpace

/-- What follows a line end. -/
def afterNewline? : List Char → Option (List Char)
  | '\n' :: r => some r
  | '\r' :: '\n' :: r => some r
  | _ => none

/-- Whether a character may stand in a comment or, quotes and backslashes apart, in a string. -/
def isTextChar (c : Char) : Bool :=
  c == '\t' || (0x20 ≤ c.toNat && c.toNat != 0x7f)

/-- What follows a comment, if there is one at the start. -/
def skipComment : List Char → List Char
  | '#' :: r => r.dropWhile isTextChar
  | cs => cs

/-- What follows the end of a line that holds nothing more than blanks and a comment. -/
def afterLine? (cs : List Char) : Option (List Char) :=
  match skipComment (skipSpace cs) with
  | [] => some []
  | r => afterNewline? r

/-- What follows blanks, line ends and comments; the first argument bounds the number of lines. -/
def skipLines : Nat → List Char → List Char
  | 0, cs => cs
  | n + 1, cs =>
    match afterNewline? (skipComment (skipSpace cs)) with
    | some r => skipLines n r
    | none => skipSpace cs

/-- What follows blanks, line ends and comments. -/
def skipGaps (cs : List Char) : List Char :=
  skipLines cs.length cs

/-! ## Strings -/

/-- What a backslash and a character stand for, the numeric escapes apart. -/
def shortEscape : Char → Option Char
  | 'b' => some '\x08'
  | 't' => some '\t'
  | 'n' => some '\n'
  | 'f' => some '\x0c'
  | 'r' => some '\r'
  | '"' => some '"'
  | '\\' => some '\\'
  | _ => none

/-- The character whose code point has the given hexadecimal digits. -/
def escapedChar (ds : List Char) : Option Char := do
  let n := (← ds.mapM hexValue).foldl (fun n d => n * 16 + d) 0
  if n < 0xd800 ∨ (0xdfff < n ∧ n < 0x110000) then some (Char.ofNat n) else none

/-- Puts a character in front of a string. -/
def consChar (c : Char) (p : List Char × List Char) : List Char × List Char :=
  (c :: p.1, p.2)

/-- A string in double quotes. -/
def basicBody : List Char → Option (List Char × List Char)
  | [] => none
  | '"' :: r => some ([], r)
  | '\\' :: 'u' :: a :: b :: c :: d :: r => do
    let x ← escapedChar [a, b, c, d]
    return consChar x (← basicBody r)
  | '\\' :: 'U' :: a :: b :: c :: d :: e :: f :: g :: h :: r => do
    let x ← escapedChar [a, b, c, d, e, f, g, h]
    return consChar x (← basicBody r)
  | '\\' :: c :: r => do
    let x ← shortEscape c
    return consChar x (← basicBody r)
  | c :: r => if isTextChar c then (basicBody r).map (consChar c) else none

/-- What three closing quotes and up to two more leave: the latter belong to the string. -/
def closing (quote : Char) (r : List Char) : List Char × List Char :=
  match r with
  | c :: d :: r' =>
    if c == quote && d == quote then ([quote, quote], r')
    else if c == quote then ([quote], d :: r')
    else ([], r)
  | [c] => if c == quote then ([quote], []) else ([], r)
  | [] => ([], [])

/-- A string in three double quotes; line ends are newlines. After a backslash at the end of a
line, blanks and line ends are passed over, which `trimming` says. -/
def multilineBody (trimming : Bool) : List Char → Option (List Char × List Char)
  | [] => none
  | '"' :: '"' :: '"' :: r => some (closing '"' r)
  | '\\' :: 'u' :: a :: b :: c :: d :: r => do
    let x ← escapedChar [a, b, c, d]
    return consChar x (← multilineBody false r)
  | '\\' :: 'U' :: a :: b :: c :: d :: e :: f :: g :: h :: r => do
    let x ← escapedChar [a, b, c, d, e, f, g, h]
    return consChar x (← multilineBody false r)
  | '\\' :: c :: r =>
    match shortEscape c with
    | some x => (multilineBody false r).map (consChar x)
    | none =>
      if (afterNewline? (skipSpace (c :: r))).isSome then multilineBody true (c :: r) else none
  | '\r' :: '\n' :: r =>
    if trimming then multilineBody true r else (multilineBody false r).map (consChar '\n')
  | c :: r =>
    if trimming && (isSpace c || c == '\n') then multilineBody true r
    else if c == '\n' || isTextChar c then (multilineBody false r).map (consChar c)
    else none

/-- A string in single quotes. -/
def literalBody : List Char → Option (List Char × List Char)
  | [] => none
  | '\'' :: r => some ([], r)
  | c :: r => if isTextChar c then (literalBody r).map (consChar c) else none

/-- A string in three single quotes; line ends are newlines. -/
def multilineLiteral : List Char → Option (List Char × List Char)
  | [] => none
  | '\'' :: '\'' :: '\'' :: r => some (closing '\'' r)
  | '\r' :: '\n' :: r => (multilineLiteral r).map (consChar '\n')
  | c :: r =>
    if c == '\n' || isTextChar c then (multilineLiteral r).map (consChar c) else none

/-- What follows a line end at the start, if there is one. -/
def skipNewline (cs : List Char) : List Char :=
  (afterNewline? cs).getD cs

/-- A string on one line, with its quotes. -/
def lineText? : List Char → Option (List Char × List Char)
  | '"' :: r => basicBody r
  | '\'' :: r => literalBody r
  | _ => none

/-- A string of any form, with its quotes. -/
def text? : List Char → Option (List Char × List Char)
  | '"' :: '"' :: '"' :: r => multilineBody false (skipNewline r)
  | '\'' :: '\'' :: '\'' :: r => multilineLiteral (skipNewline r)
  | cs => lineText? cs

end Scenario.Toml
