import Scenario.Toml.Scalar
import Scenario.Toml.Table
import Scenario.Toml.Text

/-!
# Reading TOML

A document is read line by line into a draft of its tables. Arrays and inline tables may
be nested, and a key may have parts, up to `maxNesting`. The document is given as the JSON
object that it corresponds to.
-/

namespace Scenario.Toml

/-- How deep arrays and inline tables may be nested, and how many parts a key may have. -/
def maxNesting : Nat := 79

/-! ## Keys -/

/-- Whether a character may stand in a key without quotes. -/
def isBareKeyChar (c : Char) : Bool :=
  c.isAlphanum || c == '_' || c == '-'

/-- One part of a key, and what follows it. -/
def keyPart? (cs : List Char) : Option (String × List Char) :=
  match cs with
  | '"' :: _ => (lineText? cs).map fun (s, r) => (String.ofList s, r)
  | '\'' :: _ => (lineText? cs).map fun (s, r) => (String.ofList s, r)
  | _ =>
    let name := cs.takeWhile isBareKeyChar
    if name.isEmpty then none else some (String.ofList name, cs.dropWhile isBareKeyChar)

/-- A key of at most `n` parts with dots between them, and what follows it. -/
def key? : Nat → List Char → Option (List String × List Char)
  | 0, _ => none
  | n + 1, cs => do
    let (part, r) ← keyPart? (skipSpace cs)
    match skipSpace r with
    | '.' :: r' =>
      let (parts, rest) ← key? n r'
      return (part :: parts, rest)
    | r' => return ([part], r')

/-! ## Values -/

/-- A way to read a value from the start of a text. -/
abbrev ValueReader := List Char → Option (Json × List Char)

/-- The rest of an array after its opening bracket, with the items before it, last first; the
first argument bounds the number of items. -/
def items? (value : ValueReader) : Nat → List Json → List Char → Option (Json × List Char)
  | 0, _, _ => none
  | n + 1, before, cs =>
    match skipGaps cs with
    | ']' :: r => some (.array before.reverse, r)
    | cs => do
      let (v, r) ← value cs
      match skipGaps r with
      | ',' :: r' => items? value n (v :: before) r'
      | ']' :: r' => return (.array (v :: before).reverse, r')
      | _ => none

/-- A key, an equals sign and a value: the path of the key, its last part, its value and what
follows. -/
def definition? (value : ValueReader) (cs : List Char) :
    Option (List String × String × Json × List Char) := do
  let (parts, r) ← key? maxNesting cs
  let r ← after? '=' r
  let (v, r) ← value (skipSpace r)
  let k ← parts.getLast?
  return (parts.dropLast, k, v, r)

/-- The definitions of an inline table that is not empty; the first argument bounds their
number. -/
def members? (value : ValueReader) : Nat → Table → List Char → Option (Json × List Char)
  | 0, _, _ => none
  | n + 1, t, cs => do
    let (path, k, v, r) ← definition? value cs
    let t ← t.define path k v
    match skipSpace r with
    | ',' :: r' => members? value n t r'
    | '\x7d' :: r' => return (t.toJson, r')
    | _ => none

/-- A value with arrays and inline tables nested at most `n` deep, and what follows it. -/
def value? (n : Nat) (cs : List Char) : Option (Json × List Char) :=
  match cs, n with
  | '"' :: _, _ => (text? cs).map fun (s, r) => (.text (String.ofList s), r)
  | '\'' :: _, _ => (text? cs).map fun (s, r) => (.text (String.ofList s), r)
  | '[' :: r, n + 1 => items? (value? n) cs.length [] r
  | '\x7b' :: r, n + 1 =>
    match skipSpace r with
    | '\x7d' :: r' => some (.object [], r')
    | r' => members? (value? n) cs.length .empty r'
  | _, _ =>
    let (word, r) := splitWord cs
    (scalar? word).map (·, r)

/-! ## Documents -/

/-- A header after its opening brackets, which takes so many closing ones: its path, and what
follows its line. -/
def header? (brackets : List Char) (cs : List Char) : Option (List String × List Char) := do
  let (parts, r) ← key? maxNesting cs
  if r.take brackets.length == brackets then
    return (parts, ← afterLine? (r.drop brackets.length))
  else none

/-- One line that is not blank: the draft with its content, and what follows it. -/
def line? (d : Draft) (cs : List Char) : Option (Draft × List Char) :=
  match cs with
  | '#' :: _ => do return (d, ← afterLine? cs)
  | '[' :: '[' :: r => do
    let (path, rest) ← header? [']', ']'] r
    return (← d.openItem path, rest)
  | '[' :: r => do
    let (path, rest) ← header? [']'] r
    return (← d.openTable path, rest)
  | _ => do
    let (path, k, v, r) ← definition? (value? maxNesting) cs
    return (← d.define path k v, ← afterLine? r)

/-- The lines of a document, at most as many as the first argument says. -/
def lines? : Nat → Draft → List Char → Option Draft
  | 0, d, _ => some d
  | n + 1, d, cs =>
    match skipSpace cs with
    | [] => some d
    | cs =>
      match afterNewline? cs with
      | some r => lines? n d r
      | none =>
        match line? d cs with
        | some (d', r) => lines? n d' r
        | none => none

/-- Reads a document as the JSON object that it corresponds to. A byte order mark in front is
passed over. -/
def read? (src : String) : Option Json := do
  let cs := match src.toList with
    | '\ufeff' :: r => r
    | cs => cs
  let d ← lines? (cs.length + 1) .start cs
  return (← d.close).toJson

end Scenario.Toml
