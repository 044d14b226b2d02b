import Scenario.Decimal.Plain
import Scenario.Text.Blank
import Scenario.Text.Hex
import Scenario.Width

/-!
# Numeric literals

A literal is a whole number in hexadecimal after `0x`, or a decimal with an optional
fraction and an optional exponent. Underscores may stand between digits. The scale of a
decimal is the length of its fraction less its exponent, and may not leave the range that
`maxExponent` sets.

`figures` counts the significant figures that a literal was written with, which is a
property of the text and not of the number.
-/

namespace Scenario.Decimal

/-- Why a text is not a numeric literal. -/
inductive LiteralFault where
  | notNumber
  | notDecimal
  | exponentRange
deriving DecidableEq, Inhabited, Repr

/-- The wording of a fault. -/
def LiteralFault.message : LiteralFault → String
  | notNumber => "not a number"
  | notDecimal => "not a decimal number"
  | exponentRange => "exponent out of range (limit " ++ toString maxExponent ++ ")"

/-- Continues the number `acc` with more digits of a base up to 16; underscores are passed over. -/
def readDigits (base : Nat) (acc : Nat) : List Char → Option Nat
  | [] => some acc
  | c :: r =>
    if c = '_' then readDigits base acc r
    else
      match Text.hexValue c with
      | none => none
      | some d => if d < base then readDigits base (acc * base + d) r else none

/-- Digits of a base, at least one character and no underscore first. -/
def readBody (base : Nat) (cs : List Char) : Option Nat :=
  if cs.isEmpty || cs.head? == some '_' then none else readDigits base 0 cs

/-- A whole number without a minus sign; one plus sign may stand in front. -/
def readNatural (base : Nat) : List Char → Option Nat
  | '+' :: r => readBody base r
  | cs => readBody base cs

/-- A whole number with an optional sign. -/
def readInteger (base : Nat) : List Char → Option Int
  | '-' :: '+' :: _ => none
  | '-' :: r => (readNatural base r).map fun n => -(n : Int)
  | cs => (readNatural base cs).map Int.ofNat

/-- One or more of the digits `0` to `9`. -/
def readPlainDigits (cs : List Char) : Option Nat :=
  if cs.all Char.isDigit then readBody 10 cs else none

/-- The exponent of a decimal: an optional sign and digits, within 128 bits. -/
def readExponent (cs : List Char) : Option Int :=
  let n? : Option Int :=
    match cs with
    | '-' :: r => (readPlainDigits r).map fun n => -(n : Int)
    | '+' :: r => (readPlainDigits r).map Int.ofNat
    | r => (readPlainDigits r).map Int.ofNat
  n?.filter (fitsSigned 128)

/-- Whether a character introduces an exponent. -/
def isExponentMark (c : Char) : Bool :=
  c == 'e' || c == 'E'

/-- The digits of a decimal without its point, and how many of them stand after it. A point at
the very end leaves none after it. -/
def splitPoint (base : List Char) : List Char × Nat :=
  let whole := base.takeWhile (· != '.')
  let fraction := (base.dropWhile (· != '.')).drop 1
  (whole ++ fraction, fraction.countP (· != '_'))

/-- A decimal with an optional fraction and an optional exponent, its scale within 64 bits. -/
def readDecimalText (cs : List Char) : Option Decimal := do
  let base := cs.takeWhile (!isExponentMark ·)
  let mark := cs.dropWhile (!isExponentMark ·)
  let exponent ← if mark.isEmpty then some 0 else readExponent (mark.drop 1)
  let (digits, places) := splitPoint base
  let int ← readInteger 10 digits
  let scale := (places : Int) - exponent
  if fitsSigned 64 scale then some ⟨int, scale⟩ else none

/-- Reads a decimal literal that has no blanks around it. -/
def readTrimmedDecimal (cs : List Char) : Except LiteralFault Decimal :=
  if (Text.afterHexMark? cs).isSome then .error .notDecimal
  else
    match readDecimalText cs with
    | none => .error .notNumber
    | some v => if maxExponent < v.scale.natAbs then .error .exponentRange else .ok v

/-- Reads a decimal literal; blanks around it are passed over. -/
def readDecimal (s : String) : Except LiteralFault Decimal :=
  readTrimmedDecimal (Text.trimChars s.toList)

/-- Reads a literal that has no blanks around it. -/
def readTrimmedNumber (cs : List Char) : Except LiteralFault Decimal :=
  match Text.afterHexMark? cs with
  | some r =>
    match readInteger 16 r with
    | some n => .ok (ofInt n)
    | none => .error .notNumber
  | none => readTrimmedDecimal cs

/-- Reads a literal, decimal or hexadecimal; blanks around it are passed over. -/
def readNumber (s : String) : Except LiteralFault Decimal :=
  readTrimmedNumber (Text.trimChars s.toList)

/-- The part of a literal before its exponent, if what follows the mark is one: any signs and
then digits. -/
def beforeExponent (cs : List Char) : List Char :=
  let exponent := ((cs.dropWhile (!isExponentMark ·)).drop 1).dropWhile
    (fun c => c == '+' || c == '-')
  if !exponent.isEmpty && exponent.all Char.isDigit then cs.takeWhile (!isExponentMark ·) else cs

/-- The number of significant figures that a literal is written with. -/
def figures (s : String) : Nat :=
  (beforeExponent (Text.trimChars s.toList)).countP Char.isDigit

end Scenario.Decimal
