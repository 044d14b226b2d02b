import Scenario.Expr.Token
import Scenario.Text.Lines

/-!
# Reading expressions

Tokens are read from left to right by a machine whose state is the stack of lists that
are still open (`ReaderState.opened`) and the top-level items that are complete
(`ReaderState.done`). `ReaderState.step` takes one token; it fails at a closing parenthesis with
no list open, and at an opening one with `maxDepth` lists open.

* `readExpression` reads exactly one item and stops the machine at its end, so whatever
  follows is reported as trailing input.
* `readCommand` reads all items; several of them stand for one list.
* `readScript` reads one command from each line that has any token.
-/

namespace Scenario

/-- A list that is still open: the line of its parenthesis and its items so far, last first. -/
structure OpenList where
  line : Line
  items : List Expr
deriving Inhabited, Repr

/-- The state of reading: the open lists, innermost first, and the complete items, last first. -/
structure ReaderState where
  opened : List OpenList
  done : List Expr
deriving Inhabited, Repr

namespace ReaderState

/-- Before the first token. -/
def start : ReaderState := ⟨[], []⟩

/-- Adds a complete item to the innermost open list, or to the top level. -/
def push (s : ReaderState) (e : Expr) : ReaderState :=
  match s.opened with
  | [] => { s with done := e :: s.done }
  | o :: outer => { s with opened := { o with items := e :: o.items } :: outer }

/-- Takes one token. -/
def step (s : ReaderState) (t : Located) : Except ReadError ReaderState :=
  match t.token with
  | .word w => .ok (s.push (.atom w))
  | .quoted w => .ok (s.push (.atom w))
  | .opening =>
    if maxDepth ≤ s.opened.length then .error ⟨t.line, .tooDeep⟩
    else .ok { s with opened := ⟨t.line, []⟩ :: s.opened }
  | .closing =>
    match s.opened with
    | [] => .error ⟨t.line, .strayClosing⟩
    | o :: outer => .ok (push ⟨outer, s.done⟩ (.list o.items.reverse))

/-- Takes a row of tokens. -/
def run (s : ReaderState) : List Located → Except ReadError ReaderState
  | [] => .ok s
  | t :: ts =>
    match s.step t with
    | .error e => .error e
    | .ok s' => s'.run ts

/-- Takes tokens up to the end of the first item: the item, and the tokens after it. -/
def runItem (s : ReaderState) (lastLine : Line) :
    List Located → Except ReadError (Expr × List Located)
  | [] =>
    match s.opened with
    | [] => .error ⟨lastLine, .endOfInput⟩
    | o :: _ => .error ⟨o.line, .unclosed⟩
  | t :: ts =>
    match s.step t with
    | .error e => .error e
    | .ok s' =>
      match s'.done with
      | e :: _ => .ok (e, ts)
      | [] => s'.runItem lastLine ts

/-- The items read, first one first, if no list is left open. -/
def finish (s : ReaderState) : Except ReadError (List Expr) :=
  match s.opened with
  | [] => .ok s.done.reverse
  | o :: _ => .error ⟨o.line, .unclosed⟩

end ReaderState

/-- All items of a row of tokens. -/
def readItems (ts : List Located) : Except ReadError (List Expr) :=
  match ReaderState.start.run ts with
  | .error e => .error e
  | .ok s => s.finish

/-- The command that a row of top-level items stands for, if there is any item. -/
def command? : List Expr → Option Expr
  | [] => none
  | [e] => some e
  | es => some (.list es)

/-- Reads exactly one expression. -/
def readExpression (src : String) : Except ReadError Expr :=
  match tokens src with
  | .error e => .error e
  | .ok ts =>
    match ReaderState.start.runItem ts.lastLine ts.items with
    | .error e => .error e
    | .ok (e, []) => .ok e
    | .ok (_, t :: _) => .error ⟨t.line, .trailing t.token⟩

/-- Reads one command: several top-level items read like the list of them. -/
def readCommand (src : String) : Except ReadError Expr :=
  match tokens src with
  | .error e => .error e
  | .ok ts =>
    match readItems ts.items with
    | .error e => .error e
    | .ok es =>
      match command? es with
      | none => .error ⟨1, .emptyCommand⟩
      | some e => .ok e

/-- The command on line `line`, if that line has any token. -/
def readLine (line : Line) (cs : List Char) : Except ReadError (Option Expr) :=
  match Token.scan 1 cs with
  | .error e => .error ⟨line, e.fault⟩
  | .ok ts =>
    match readItems ts.items with
    | .error e => .error ⟨line, e.fault⟩
    | .ok es => .ok (command? es)

/-- The commands of rows of characters, the first of which is line `line`. -/
def readLines (line : Line) : List (List Char) → Except ReadError (List Expr)
  | [] => .ok []
  | l :: ls =>
    match readLine line l with
    | .error e => .error e
    | .ok e? => (readLines (line + 1) ls).map (e?.toList ++ ·)

/-- Reads a script: one command from each line that has any token. -/
def readScript (src : String) : Except ReadError (List Expr) :=
  readLines 1 (Text.lines src.toList)

end Scenario
