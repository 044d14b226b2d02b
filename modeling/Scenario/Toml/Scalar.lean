import Scenario.Json
import Scenario.Text.Hex
import Scenario.Width

/-!
# Numbers, dates and truth values of TOML

Each of these is one unbroken word, except that a date and a time may have a blank
between them. A date or time stands in the document as a table with one reserved key.
-/

namespace Scenario.Toml

/-! ## Digits -/

/-- Digits of a base, one underscore being allowed between two of them: their value. -/
def digits? (base : Nat) : List Char → Option Nat
  | [] => none
  | c :: r => do
    let d ← digit c
    continued d r
where
  /-- The value of one digit. -/
  digit (c : Char) : Option Nat :=
    (Text.hexValue c).filter (· < base)
  /-- More digits after the number `acc`. -/
  continued (acc : Nat) : List Char → Option Nat
    | [] => some acc
    | '_' :: c :: r => do
      let d ← digit c
      continued (acc * base + d) r
    | c :: r => do
      let d ← digit c
      continued (acc * base + d) r

/-- A number of at least one digit without a zero in front. -/
def whole? (cs : List Char) : Option Nat :=
  if cs.head? == some '0' && 1 < cs.length then none else digits? 10 cs

/-- Whether a number starts with a minus sign, and what follows its sign. -/
def splitSign : List Char → Bool × List Char
  | '-' :: r => (true, r)
  | '+' :: r => (false, r)
  | cs => (false, cs)

/-! ## Numbers -/

/-- A whole number of 64 bits. -/
def integer? (cs : List Char) : Option Int := do
  let n ← match cs with
    | '0' :: 'x' :: r => (digits? 16 r).map Int.ofNat
    | '0' :: 'o' :: r => (digits? 8 r).map Int.ofNat
    | '0' :: 'b' :: r => (digits? 2 r).map Int.ofNat
    | cs =>
      let (negative, r) := splitSign cs
      (whole? r).map fun n => if negative then -(n : Int) else n
  if fitsSigned 64 n then some n else none

/-- Whether `n * 10 ^ e` is too large for a binary number of 64 bits: it has more than 309 places
before the point, or has that many and reaches the point from which numbers round up to
infinity. -/
def overflows (n : Nat) (e : Int) : Bool :=
  let places := (Nat.toDigits 10 n).length + e
  n != 0 && (309 < places ||
    (places == 309 &&
      Nat.pow 2 1024 - Nat.pow 2 970 ≤ n * Nat.pow 10 e.toNat / Nat.pow 10 (-e).toNat))

/-- Whether a word is a number with a fraction or an exponent that a binary number of 64 bits can
stand for. -/
def isReal (cs : List Char) : Bool :=
  let (negative, r) := splitSign cs
  if r == ['i', 'n', 'f'] || r == ['n', 'a', 'n'] then true
  else
    let isMark := fun c : Char => c == 'e' || c == 'E'
    let base := r.takeWhile (!isMark ·)
    let mark := (r.dropWhile (!isMark ·)).drop 1
    let hasMark := r.any isMark
    let whole := base.takeWhile (· != '.')
    let fraction := (base.dropWhile (· != '.')).drop 1
    let hasPoint := base.any (· == '.')
    let (markNegative, exponent) := splitSign mark
    let places := if hasPoint then fraction.countP (· != '_') else 0
    match whole? whole, digits? 10 exponent, digits? 10 fraction with
    | none, _, _ => false
    | some n, e?, f? =>
      (hasPoint || hasMark) && (!hasMark || e?.isSome) && (!hasPoint || f?.isSome) &&
        (negative ||
          let e := (if markNegative then -1 else 1) * Int.ofNat (e?.getD 0) - places
          !overflows (n * Nat.pow 10 places + f?.getD 0) e)

/-! ## Dates and times -/

/-- A number of exactly `n` digits, and what follows it. -/
def fixedDigits? (n : Nat) (cs : List Char) : Option (Nat × List Char) :=
  let ds := cs.take n
  if ds.length = n ∧ ds.all Char.isDigit then
    some (ds.foldl (fun n c => n * 10 + (c.toNat - '0'.toNat)) 0, cs.drop n)
  else none

/-- What follows a character that has to stand at the start. -/
def after? (c : Char) : List Char → Option (List Char)
  | d :: r => if c = d then some r else none
  | [] => none

/-- The number of days of a month. -/
def daysIn (year month : Nat) : Nat :=
  if month = 2 then
    if year % 4 = 0 ∧ (year % 100 ≠ 0 ∨ year % 400 = 0) then 29 else 28
  else if [4, 6, 9, 11].contains month then 30
  else 31

/-- Whether a date starts the text; what follows it. -/
def afterDate? (cs : List Char) : Option (List Char) := do
  let (year, r) ← fixedDigits? 4 cs
  let (month, r) ← fixedDigits? 2 (← after? '-' r)
  let (day, r) ← fixedDigits? 2 (← after? '-' r)
  if 1 ≤ month ∧ month ≤ 12 ∧ 1 ≤ day ∧ day ≤ daysIn year month then some r else none

/-- A time of day at the start of the text, with at most nine places of its fraction and without
zeros at their end; what follows it. -/
def time? (cs : List Char) : Option (List Char × List Char) := do
  let (hour, r) ← fixedDigits? 2 cs
  let (minute, r) ← fixedDigits? 2 (← after? ':' r)
  let (second, r) ← fixedDigits? 2 (← after? ':' r)
  if hour < 24 ∧ minute < 60 ∧ second ≤ 60 then
    match r with
    | '.' :: r' =>
      let ds := r'.takeWhile Char.isDigit
      if ds.isEmpty then none
      else
        let kept := ((ds.take 9).reverse.dropWhile (· == '0')).reverse
        let fraction := if kept.isEmpty then [] else '.' :: kept
        some (cs.take 8 ++ fraction, r'.dropWhile Char.isDigit)
    | r => some (cs.take 8, r)
  else none

/-- A complete offset from universal time, in its canonical form: universal time itself, if it is
written as an offset of no minutes, has a plus sign. -/
def offset? (cs : List Char) : Option (List Char) :=
  match cs with
  | ['Z'] => some ['Z']
  | ['z'] => some ['Z']
  | sign :: r => do
    if sign == '+' || sign == '-' then
      let (hour, r') ← fixedDigits? 2 r
      let (minute, r') ← fixedDigits? 2 (← after? ':' r')
      if hour < 24 ∧ minute < 60 ∧ r'.isEmpty then
        some ((if hour = 0 ∧ minute = 0 then '+' else sign) :: r)
      else none
    else none
  | [] => some []

/-- A complete time of day with an optional offset. -/
def timeOfDay? (cs : List Char) : Option (List Char) := do
  let (time, r) ← time? cs
  return time ++ (← offset? r)

/-- A complete date or time, in its canonical form. -/
def moment? (cs : List Char) : Option (List Char) :=
  match afterDate? cs with
  | some [] => some cs
  | some (c :: r) => do
    if c == 'T' || c == 't' || c == ' ' then
      return cs.take 10 ++ 'T' :: (← timeOfDay? r)
    else none
  | none => do
    let (time, r) ← time? cs
    if r.isEmpty then some time else none

/-- The key of the table that a date or time stands for. -/
def momentKey : String := "$__toml_private_datetime"

/-! ## Words -/

/-- Whether a character may stand in a word. -/
def inWord (c : Char) : Bool :=
  c.isAlphanum || c == '+' || c == '-' || c == '_' || c == '.' || c == ':'

/-- The word at the start of the text, a date taking in the time that follows after a blank. -/
def splitWord (cs : List Char) : List Char × List Char :=
  let word := cs.takeWhile inWord
  let rest := cs.dropWhile inWord
  match afterDate? word, rest with
  | some [], ' ' :: c :: r =>
    if c.isDigit then
      (word ++ ' ' :: (c :: r).takeWhile inWord, (c :: r).dropWhile inWord)
    else (word, rest)
  | _, _ => (word, rest)

/-- The value of a word. -/
def scalar? (cs : List Char) : Option Json :=
  if cs == ['t', 'r', 'u', 'e'] then some (.bool true)
  else if cs == ['f', 'a', 'l', 's', 'e'] then some (.bool false)
  else
    match moment? cs, integer? cs with
    | some m, _ => some (.object [(momentKey, .text (String.ofList m))])
    | none, some n => some (.int n)
    | none, none => if isReal cs then some (.real (String.ofList cs)) else none

end Scenario.Toml
