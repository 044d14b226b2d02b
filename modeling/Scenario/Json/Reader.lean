import Scenario.Json
import Scenario.Text.Hex

/-!
# Reading JSON

Text is cut into lexemes, and the lexemes drive a machine that holds the arrays and
objects still open and what may come next (`Expected`). The whole text must be one value,
with nothing but the four JSON blanks around it.
-/

namespace Scenario.Json

open Text (hexValue)

/-- A lexeme of JSON text; `leaf` is a value without parts. -/
inductive Lexeme where
  | leaf (value : Json)
  | openArray
  | closeArray
  | openObject
  | closeObject
  | comma
  | colon
deriving Inhabited, Repr

/-! ## Lexemes -/

/-- Whether a character may stand between lexemes. -/
def isGap (c : Char) : Bool :=
  c == ' ' || c == '\t' || c == '\n' || c == '\r'

/-- The number of four hexadecimal digits. -/
def hexUnit (a b c d : Char) : Option Nat := do
  return ((← hexValue a) * 16 + (← hexValue b)) * 256 + (← hexValue c) * 16 + (← hexValue d)

/-- What a backslash and a character other than `u` stand for. -/
def shortEscape : Char → Option Char
  | '"' => some '"'
  | '\\' => some '\\'
  | '/' => some '/'
  | 'b' => some '\x08'
  | 'f' => some '\x0c'
  | 'n' => some '\n'
  | 'r' => some '\r'
  | 't' => some '\t'
  | _ => none

/-- A string after its opening quote: its code points, where an escape may also give half of a
surrogate pair, and what follows its closing quote. -/
def textUnits : List Char → Option (List Nat × List Char)
  | [] => none
  | '"' :: r => some ([], r)
  | '\\' :: 'u' :: a :: b :: c :: d :: r => do
    let n ← hexUnit a b c d
    let (ns, rest) ← textUnits r
    return (n :: ns, rest)
  | '\\' :: e :: r => do
    let c ← shortEscape e
    let (ns, rest) ← textUnits r
    return (c.toNat :: ns, rest)
  | c :: r =>
    if c.toNat < 0x20 then none
    else do
      let (ns, rest) ← textUnits r
      return (c.toNat :: ns, rest)

theorem textUnits_length {cs rest : List Char} {ns : List Nat}
    (h : textUnits cs = some (ns, rest)) : rest.length < cs.length := by
  fun_induction textUnits cs generalizing ns with
  | case1 => cases h
  | case2 r => cases h; simp
  | case3 a b c d r ih =>
    simp only [Option.bind_eq_bind, Option.bind_eq_some_iff, Option.pure_def, Prod.exists] at h
    obtain ⟨_, -, _, _, hr, h⟩ := h
    cases h
    have := ih hr
    simp only [List.length_cons]
    omega
  | case4 e r _ ih =>
    simp only [Option.bind_eq_bind, Option.bind_eq_some_iff, Option.pure_def, Prod.exists] at h
    obtain ⟨_, -, _, _, hr, h⟩ := h
    cases h
    have := ih hr
    simp only [List.length_cons]
    omega
  | case5 => cases h
  | case6 c r _ _ _ _ ih =>
    simp only [Option.bind_eq_bind, Option.bind_eq_some_iff, Option.pure_def, Prod.exists] at h
    obtain ⟨_, _, hr, h⟩ := h
    cases h
    have := ih hr
    simp only [List.length_cons]
    omega

/-- The characters of code points, the two halves of a surrogate pair being one character. -/
def joinUnits : List Nat → Option (List Char)
  | [] => some []
  | [n] => if 0xd800 ≤ n ∧ n ≤ 0xdfff then none else some [Char.ofNat n]
  | n :: m :: r =>
    if 0xd800 ≤ n ∧ n ≤ 0xdbff ∧ 0xdc00 ≤ m ∧ m ≤ 0xdfff then
      (joinUnits r).map (Char.ofNat (0x10000 + (n - 0xd800) * 0x400 + (m - 0xdc00)) :: ·)
    else if 0xd800 ≤ n ∧ n ≤ 0xdfff then none
    else (joinUnits (m :: r)).map (Char.ofNat n :: ·)

/-- The value of a string with these code points. -/
def ofUnits (ns : List Nat) : Json :=
  match joinUnits ns with
  | some cs => .text (String.ofList cs)
  | none => .garbled

/-- Whether a character may stand in a number. -/
def inNumber (c : Char) : Bool :=
  c.isDigit || c == '-' || c == '+' || c == '.' || c == 'e' || c == 'E'

/-- Whether these are the digits of a whole number: one at least, and no zero in front. -/
def isWhole : List Char → Bool
  | [] => false
  | ['0'] => true
  | c :: r => c != '0' && (c :: r).all Char.isDigit

/-- Whether this is an exponent after its mark: an optional sign and digits. -/
def isExponent : List Char → Bool
  | [] => false
  | c :: r =>
    if c == '+' || c == '-' then !r.isEmpty && r.all Char.isDigit else (c :: r).all Char.isDigit

/-- The value of a number literal. -/
def ofLiteral? (cs : List Char) : Option Json :=
  let negative := cs.head? == some '-'
  let magnitude := if negative then cs.drop 1 else cs
  let isMark := fun c : Char => c == 'e' || c == 'E'
  let base := magnitude.takeWhile (!isMark ·)
  let mark := magnitude.dropWhile (!isMark ·)
  let whole := base.takeWhile (· != '.')
  let point := base.dropWhile (· != '.')
  let goodPoint := point.isEmpty || (1 < point.length && (point.drop 1).all Char.isDigit)
  let goodMark := mark.isEmpty || isExponent (mark.drop 1)
  if isWhole whole && goodPoint && goodMark then
    if point.isEmpty && mark.isEmpty && !(negative && whole == ['0']) then
      let n := whole.foldl (fun n c => n * 10 + (c.toNat - '0'.toNat)) 0
      some (.int (if negative then -n else n))
    else some (.real (String.ofList cs))
  else none

/-- The word that names a value without parts. -/
def ofWord? (cs : List Char) : Option Json :=
  if cs == ['n', 'u', 'l', 'l'] then some .null
  else if cs == ['t', 'r', 'u', 'e'] then some (.bool true)
  else if cs == ['f', 'a', 'l', 's', 'e'] then some (.bool false)
  else none

/-- Cuts a text into lexemes. -/
def lexemes (cs : List Char) : Option (List Lexeme) :=
  match cs with
  | [] => some []
  | c :: r =>
    if isGap c then lexemes r
    else if c = '[' then (lexemes r).map (.openArray :: ·)
    else if c = ']' then (lexemes r).map (.closeArray :: ·)
    else if c = '\x7b' then (lexemes r).map (.openObject :: ·)
    else if c = '\x7d' then (lexemes r).map (.closeObject :: ·)
    else if c = ',' then (lexemes r).map (.comma :: ·)
    else if c = ':' then (lexemes r).map (.colon :: ·)
    else if c = '"' then
      match _hq : textUnits r with
      | none => none
      | some (ns, rest) => (lexemes rest).map (.leaf (ofUnits ns) :: ·)
    else if inNumber c then
      match ofLiteral? (c :: r.takeWhile inNumber) with
      | none => none
      | some v => (lexemes (r.dropWhile inNumber)).map (.leaf v :: ·)
    else
      match ofWord? (c :: r.takeWhile Char.isAlpha) with
      | none => none
      | some v => (lexemes (r.dropWhile Char.isAlpha)).map (.leaf v :: ·)
termination_by cs.length
decreasing_by
  all_goals first
    | exact Nat.lt_succ_self _
    | exact Nat.lt_succ_of_lt (textUnits_length _hq)
    | exact Nat.lt_succ_of_le (List.dropWhile_suffix _).length_le

/-! ## Values -/

/-- An array or object that is still open, its parts last first. An object also holds the name
whose value is to come, and whether a name of it is garbled. -/
inductive Opened where
  | array (items : List Json)
  | object (members : List (String × Json)) (name : String) (garbled : Bool)
deriving Inhabited, Repr

/-- What may come next. -/
inductive Expected where
  /-- A value, or the end of the array just opened. -/
  | value (orEnd : Bool)
  /-- A member name, or the end of the object just opened. -/
  | name (orEnd : Bool)
  | colon
  /-- A comma or the end of the innermost array or object. -/
  | separator
  /-- Nothing: the value is complete. -/
  | done (value : Json)
deriving Inhabited, Repr

/-- The state of reading: the open arrays and objects, innermost first. -/
structure State where
  opened : List Opened
  expected : Expected
deriving Inhabited, Repr

/-- Adds a complete value to the innermost open array or object. -/
def State.deliver (v : Json) : List Opened → State
  | [] => ⟨[], .done v⟩
  | .array items :: outer => ⟨.array (v :: items) :: outer, .separator⟩
  | .object members name g :: outer =>
    ⟨.object ((name, v) :: members) "" g :: outer, .separator⟩

/-- Closes the innermost array. -/
def State.closeArray : List Opened → Option State
  | .array items :: outer => some (deliver (.array items.reverse) outer)
  | _ => none

/-- Closes the innermost object. -/
def State.closeObject : List Opened → Option State
  | .object members _ g :: outer =>
    some (deliver (if g then .garbled else .object members.reverse) outer)
  | _ => none

/-- Takes the name of the next member of the innermost object. -/
def State.takeName (v : Json) : List Opened → Option State
  | .object members _ g :: outer =>
    match v with
    | .text s => some ⟨.object members s g :: outer, .colon⟩
    | .garbled => some ⟨.object members "" true :: outer, .colon⟩
    | _ => none
  | _ => none

/-- Takes one lexeme. -/
def State.step (s : State) (t : Lexeme) : Option State :=
  match s.expected, t with
  | .value _, .leaf v => some (deliver v s.opened)
  | .value _, .openArray => some ⟨.array [] :: s.opened, .value true⟩
  | .value _, .openObject => some ⟨.object [] "" false :: s.opened, .name true⟩
  | .value true, .closeArray => closeArray s.opened
  | .name _, .leaf v => takeName v s.opened
  | .name true, .closeObject => closeObject s.opened
  | .colon, .colon => some { s with expected := .value false }
  | .separator, .closeArray => closeArray s.opened
  | .separator, .closeObject => closeObject s.opened
  | .separator, .comma =>
    match s.opened with
    | .array _ :: _ => some { s with expected := .value false }
    | .object _ _ _ :: _ => some { s with expected := .name false }
    | [] => none
  | _, _ => none

/-- Takes a row of lexemes. -/
def State.run (s : State) : List Lexeme → Option State
  | [] => some s
  | t :: ts => (s.step t).bind fun s' => s'.run ts

/-- Reads one value from a text that holds nothing else. -/
def read? (src : String) : Option Json :=
  match lexemes src.toList with
  | none => none
  | some ts =>
    match State.run ⟨[], .value false⟩ ts with
    | some ⟨_, .done v⟩ => some v
    | _ => none

end Scenario.Json
