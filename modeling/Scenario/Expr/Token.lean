import Scenario.Expr.Written
import Scenario.Text.Quoted

/-!
# Tokens of command text

Text is cut into words, quoted texts and parentheses, each with the line it starts
on. Blanks separate tokens; two dashes where a token could start begin a comment that
runs to the end of the line. A word runs up to a blank, a parenthesis or a quote, so
dashes inside it belong to it. A quoted text must be closed on its line.

`scan` cuts a whole text; `quotedBody` reads one quoted text and leaves a shorter rest
than it was given (`quotedBody_length`), which is why scanning ends.
-/

namespace Scenario

open Text (isBlank)

/-- A token of command text. -/
inductive Token where
  /-- A run of characters up to a blank, a parenthesis or a quote. -/
  | word (text : String)
  /-- A text in quotes, with its escapes resolved. -/
  | quoted (text : String)
  | opening
  | closing
deriving DecidableEq, Inhabited, Repr

/-- How a token is named in a message. -/
def Token.shown : Token → String
  | word s => "Word(" ++ Text.quoted s ++ ")"
  | quoted s => "Str(" ++ Text.quoted s ++ ")"
  | opening => "LParen"
  | closing => "RParen"

/-- Why a text is not read. -/
inductive ReadFault where
  | unterminatedText
  | unterminatedEscape
  | tooDeep
  | unclosed
  | strayClosing
  | endOfInput
  | trailing (token : Token)
  | emptyCommand
deriving DecidableEq, Inhabited, Repr

/-- The deepest nesting of lists that is read. -/
def maxDepth : Nat := 256

/-- The wording of a fault. -/
def ReadFault.message : ReadFault → String
  | unterminatedText => "unterminated string literal"
  | unterminatedEscape => "unterminated escape in string"
  | tooDeep => "lists nested deeper than " ++ toString maxDepth
  | unclosed => "unclosed '(' opened here"
  | strayClosing => "unexpected ')'"
  | endOfInput => "unexpected end of input"
  | trailing t => "unexpected trailing input " ++ t.shown
  | emptyCommand => "empty command"

/-- The number of a line. Lines are counted from 1 in 32 bits, so after line `2 ^ 32 - 1` the count
goes on with 0. -/
abbrev Line := UInt32

instance : Coe Line Int := ⟨fun line => line.toNat⟩

/-- A fault and the line it is reported on. -/
structure ReadError where
  line : Line
  fault : ReadFault
deriving DecidableEq, Inhabited, Repr

/-- The wording of a reading error. -/
def ReadError.message (e : ReadError) : String :=
  "line " ++ toString e.line ++ ": " ++ e.fault.message

/-- A token and the line it starts on. -/
structure Located where
  token : Token
  line : Line
deriving DecidableEq, Inhabited, Repr

/-- The tokens of a text, and the line on which the text ends. -/
structure Tokens where
  items : List Located
  lastLine : Line
deriving DecidableEq, Inhabited, Repr

/-- Puts a token in front of those that follow it. -/
def Tokens.cons (t : Located) (ts : Tokens) : Tokens :=
  { ts with items := t :: ts.items }

namespace Token

/-- What a backslash and the character after it stand for in a quoted text. -/
def unescaped : Char → List Char
  | '"' => ['"']
  | '\\' => ['\\']
  | 'n' => ['\n']
  | 't' => ['\t']
  | c => ['\\', c]

/-- A quoted text after its opening quote: its content, and what follows its closing quote. -/
def quotedBody : List Char → Except ReadFault (List Char × List Char)
  | [] => .error .unterminatedText
  | '"' :: r => .ok ([], r)
  | ['\\'] => .error .unterminatedEscape
  | '\\' :: c :: r => (quotedBody r).map fun (body, rest) => (unescaped c ++ body, rest)
  | c :: r =>
    if c = '\n' then .error .unterminatedText
    else (quotedBody r).map fun (body, rest) => (c :: body, rest)

theorem quotedBody_length {cs body rest : List Char} (h : quotedBody cs = .ok (body, rest)) :
    rest.length < cs.length := by
  fun_induction quotedBody cs generalizing body with
  | case1 => cases h
  | case2 r => cases h; simp
  | case3 => cases h
  | case4 c r ih =>
    cases hq : quotedBody r with
    | error e => simp [hq, Except.map] at h
    | ok p =>
      simp only [hq, Except.map, Except.ok.injEq, Prod.mk.injEq] at h
      obtain ⟨-, rfl⟩ := h
      have := ih hq
      simp only [List.length_cons]
      omega
  | case5 => cases h
  | case6 c r _ _ _ _ ih =>
    cases hq : quotedBody r with
    | error e => simp [hq, Except.map] at h
    | ok p =>
      simp only [hq, Except.map, Except.ok.injEq, Prod.mk.injEq] at h
      obtain ⟨-, rfl⟩ := h
      have := ih hq
      simp only [List.length_cons]
      omega

/-- Whether a character belongs to a word. -/
def inWord (c : Char) : Bool :=
  !(isBlank c || c == '(' || c == ')' || c == '"')

theorem dropWhile_length_le {α : Type} (p : α → Bool) (xs : List α) :
    (xs.dropWhile p).length ≤ xs.length :=
  (List.dropWhile_suffix p).length_le

/-- Whether a text starts with two dashes. -/
def startsComment : List Char → Bool
  | '-' :: '-' :: _ => true
  | _ => false

/-- Cuts a text that starts on `line` into tokens. -/
def scan (line : Line) (cs : List Char) : Except ReadError Tokens :=
  match cs with
  | [] => .ok ⟨[], line⟩
  | c :: r =>
    if startsComment (c :: r) then scan line (r.dropWhile (· != '\n'))
    else if isBlank c then scan (if c = '\n' then line + 1 else line) r
    else if c = '"' then
      match _hq : quotedBody r with
      | .error f => .error ⟨line, f⟩
      | .ok (body, rest) =>
        (scan line rest).map (Tokens.cons ⟨quoted (String.ofList body), line⟩)
    else if c = '(' then (scan line r).map (Tokens.cons ⟨opening, line⟩)
    else if c = ')' then (scan line r).map (Tokens.cons ⟨closing, line⟩)
    else
      (scan line (r.dropWhile inWord)).map
        (Tokens.cons ⟨word (String.ofList (c :: r.takeWhile inWord)), line⟩)
termination_by cs.length
decreasing_by
  · exact Nat.lt_succ_of_le (dropWhile_length_le _ _)
  · exact Nat.lt_succ_self _
  · exact Nat.lt_succ_of_lt (quotedBody_length _hq)
  · exact Nat.lt_succ_self _
  · exact Nat.lt_succ_self _
  · exact Nat.lt_succ_of_le (dropWhile_length_le _ _)

end Token

/-- The tokens of a text. -/
def tokens (src : String) : Except ReadError Tokens :=
  Token.scan 1 src.toList

end Scenario
