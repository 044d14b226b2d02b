import Mathlib.Data.Nat.Digits.Defs
import Scenario.Proofs.Decimal.Plain

/-!
# Literals are read exactly

A decimal literal is a `Spelling`: a sign, digits before and after a point, and an exponent, most
of which may be missing. Its characters are neither blanks nor the mark of a hexadecimal literal
(`Spelling.mem_chars`), so both readers take it as a decimal. Without the point, what stands before
the exponent are the digits of the mantissa (`Spelling.splitPoint_base`), and the exponent moves the
point (`Spelling.exponent?_tail`). Together they are the number that the literal spells
(`Spelling.readDecimalText_chars`), and it is the number that is read, if its scale is in range
(`readDecimal_spelling`).

A hexadecimal literal is the number with its digits in base 16, by induction on the digits and so of
whatever length (`readDigits_of_isHexDigit`), and it is no decimal.
-/

namespace Scenario.Decimal

variable {cs ds : List Char}

/-! ## Signs and exponents -/

/-- The ways to write a sign. -/
inductive Sign where
  | none
  | plus
  | minus
deriving DecidableEq, Repr

namespace Sign

/-- The sign as it is written. -/
def chars : Sign → List Char
  | none => []
  | plus => ['+']
  | minus => ['-']

/-- A number with the sign before it. -/
def apply : Sign → Nat → Int
  | minus, n => -n
  | _, n => n

theorem eq_of_mem_chars {s : Sign} {c : Char} (hc : c ∈ s.chars) : c = '+' ∨ c = '-' := by
  cases s <;> simp_all [chars]

theorem readInteger_chars (s : Sign) (hds : ∀ c ∈ ds, c.isDigit = true) (hne : ds ≠ []) :
    readInteger 10 (s.chars ++ ds) = some (s.apply (Nat.ofDigitChars 10 ds 0)) := by
  cases s with
  | none => exact readInteger_signed false hds hne
  | minus => exact readInteger_signed true hds hne
  | plus =>
    have hbody := readBody_of_isDigit hds hne
    simp [readInteger, readNatural, chars, apply, hbody]

theorem readExponent_chars (s : Sign) (hds : ∀ c ∈ ds, c.isDigit = true) (hne : ds ≠ [])
    (hfit : fitsSigned 128 (s.apply (Nat.ofDigitChars 10 ds 0)) = true) :
    readExponent (s.chars ++ ds) = some (s.apply (Nat.ofDigitChars 10 ds 0)) := by
  cases s with
  | none => exact readExponent_signed false hds hne hfit
  | minus => exact readExponent_signed true hds hne hfit
  | plus =>
    have hread := readPlainDigits_of_isDigit hds hne
    simpa [readExponent, chars, apply, hread, Option.filter] using hfit

end Sign

/-- An exponent as it is written: a mark, a sign and digits. -/
structure Exponent where
  mark : Char
  sign : Sign
  digits : List Char
  isMark : mark = 'e' ∨ mark = 'E'
  isDigit_digits : ∀ c ∈ digits, c.isDigit = true
  digits_ne_nil : digits ≠ []

namespace Exponent

/-- The text of an exponent. -/
def chars (x : Exponent) : List Char :=
  x.mark :: (x.sign.chars ++ x.digits)

/-- The power of ten that an exponent stands for. -/
def value (x : Exponent) : Int :=
  x.sign.apply (Nat.ofDigitChars 10 x.digits 0)

end Exponent

/-! ## Decimal literals -/

/-- A decimal literal as it is written. There is a digit before or after the point, and a point
before a fraction. -/
structure Spelling where
  sign : Sign
  whole : List Char
  fraction : List Char
  pointed : Bool
  exponent : Option Exponent
  isDigit_whole : ∀ c ∈ whole, c.isDigit = true
  isDigit_fraction : ∀ c ∈ fraction, c.isDigit = true
  digits_ne_nil : whole ++ fraction ≠ []
  pointed_of_fraction : fraction ≠ [] → pointed = true

namespace Spelling

/-- The part of the text before the exponent. -/
def base (t : Spelling) : List Char :=
  t.sign.chars ++ t.whole ++ if t.pointed then '.' :: t.fraction else []

/-- The text of the exponent; without one there is none. -/
def tail (t : Spelling) : List Char :=
  (t.exponent.map Exponent.chars).getD []

/-- The text of a literal. -/
def chars (t : Spelling) : List Char :=
  t.base ++ t.tail

/-- The exponent of a literal; without one it is 0. -/
def exponentValue (t : Spelling) : Int :=
  (t.exponent.map Exponent.value).getD 0

/-- The digits without the point, with the sign. -/
def mantissa (t : Spelling) : Int :=
  t.sign.apply (Nat.ofDigitChars 10 (t.whole ++ t.fraction) 0)

/-- How many places the literal has after the point, once it is moved by the exponent. -/
def scale (t : Spelling) : Int :=
  t.fraction.length - t.exponentValue

theorem isDigit_of_mem (t : Spelling) : ∀ c ∈ t.whole ++ t.fraction, c.isDigit = true := fun c hc =>
  (List.mem_append.mp hc).elim (t.isDigit_whole c) (t.isDigit_fraction c)

/-- Before the exponent there are signs, points and digits. -/
theorem mem_base {t : Spelling} {c : Char} (hc : c ∈ t.base) :
    c.isDigit = true ∨ c = '+' ∨ c = '-' ∨ c = '.' := by
  rw [base, List.mem_append, List.mem_append] at hc
  rcases hc with (hc | hc) | hc
  · rcases Sign.eq_of_mem_chars hc with rfl | rfl <;> simp
  · exact .inl (t.isDigit_whole c hc)
  · split at hc
    · rcases List.mem_cons.mp hc with rfl | hc
      · simp
      · exact .inl (t.isDigit_fraction c hc)
    · cases hc

theorem splitPoint_base (t : Spelling) :
    splitPoint t.base = (t.sign.chars ++ (t.whole ++ t.fraction), t.fraction.length) := by
  have hpoint : '.' ∉ t.sign.chars ++ t.whole := by
    intro hc
    rcases List.mem_append.mp hc with hc | hc
    · rcases Sign.eq_of_mem_chars hc with h | h <;> cases h
    · exact absurd (t.isDigit_whole _ hc) (by decide)
  have hplaces : t.fraction.countP (· != '_') = t.fraction.length :=
    List.countP_eq_length.mpr fun c hc =>
      bne_iff_ne.mpr (Text.ne_of_isDigit (t.isDigit_fraction c hc) rfl)
  rw [base]
  split
  · rw [splitPoint_append_point hpoint, hplaces, List.append_assoc]
  · rename_i hpointed
    have hfraction : t.fraction = [] := by
      by_contra hne
      exact hpointed (t.pointed_of_fraction hne)
    rw [List.append_nil, splitPoint_of_no_point hpoint, hfraction, List.append_nil]
    rfl

theorem exponent?_tail {t : Spelling} (hfit : fitsSigned 128 t.exponentValue = true) :
    exponent? t.tail = some t.exponentValue := by
  rw [tail, exponentValue] at *
  cases hx : t.exponent with
  | none => rfl
  | some x =>
    rw [hx] at hfit
    exact x.sign.readExponent_chars x.isDigit_digits x.digits_ne_nil hfit

theorem head?_tail (t : Spelling) : t.tail.head?.all isExponentMark = true := by
  rw [tail]
  cases t.exponent with
  | none => rfl
  | some x =>
    rcases x.isMark with h | h <;> simp [Exponent.chars, h, isExponentMark]

/-- The literal is read as its mantissa and its scale. -/
theorem readDecimalText_chars {t : Spelling} (hexponent : fitsSigned 128 t.exponentValue = true)
    (hscale : fitsSigned 64 t.scale = true) :
    readDecimalText t.chars = some ⟨t.mantissa, t.scale⟩ := by
  have hmark : ∀ c ∈ t.base, isExponentMark c = false := by
    intro c hc
    rcases mem_base hc with hc | rfl | rfl | rfl
    · exact isExponentMark_of_isDigit hc
    all_goals rfl
  have hint : readInteger 10 (splitPoint t.base).1 = some t.mantissa := by
    rw [splitPoint_base]
    exact t.sign.readInteger_chars t.isDigit_of_mem t.digits_ne_nil
  have hplaces : ((splitPoint t.base).2 : Int) - t.exponentValue = t.scale := by
    rw [splitPoint_base, scale]
  have htext := readDecimalText_append hmark t.head?_tail (exponent?_tail hexponent) hint
    (by rw [hplaces]; exact hscale)
  rwa [hplaces] at htext

/-- A literal has no blanks in it and no mark of a hexadecimal one. -/
theorem mem_chars {t : Spelling} {c : Char} (hc : c ∈ t.chars) :
    c.isDigit = true ∨ c ∈ ['+', '-', '.', 'e', 'E'] := by
  rw [chars, List.mem_append] at hc
  rcases hc with hc | hc
  · rcases mem_base hc with hc | rfl | rfl | rfl
    · exact .inl hc
    all_goals simp
  · rw [tail] at hc
    cases hx : t.exponent with
    | none => simp [hx] at hc
    | some x =>
      rw [hx] at hc
      rcases List.mem_cons.mp hc with rfl | hc
      · rcases x.isMark with h | h <;> simp [h]
      · rcases List.mem_append.mp hc with hc | hc
        · rcases Sign.eq_of_mem_chars hc with rfl | rfl <;> simp
        · exact .inl (x.isDigit_digits c hc)

theorem isBlank_of_mem_chars {t : Spelling} {c : Char} (hc : c ∈ t.chars) :
    Text.isBlank c = false := by
  rcases mem_chars hc with hc | hc
  · exact Text.isBlank_of_isHexDigit (by rw [Text.isHexDigit, Text.hexValue_of_isDigit hc]; rfl)
  · have hall : ['+', '-', '.', 'e', 'E'].all (!Text.isBlank ·) = true := by decide
    simpa using List.all_eq_true.mp hall c hc

theorem afterHexMark?_chars (t : Spelling) : Text.afterHexMark? t.chars = none := by
  cases hmark : Text.afterHexMark? t.chars with
  | none => rfl
  | some r =>
    have hx : 'x' ∉ t.chars := fun h => absurd (mem_chars h) (by decide)
    have hX : 'X' ∉ t.chars := fun h => absurd (mem_chars h) (by decide)
    rcases Text.afterHexMark?_eq_some_iff.mp hmark with h | h
    · exact absurd (h ▸ by simp) hx
    · exact absurd (h ▸ by simp) hX

end Spelling

/-! ## Hexadecimal literals -/

/-- The number with these digits in base 16. -/
def hexNumber (cs : List Char) : Nat :=
  Nat.ofDigits 16 (cs.map fun c => (Text.hexValue c).getD 0).reverse

theorem readDigits_of_isHexDigit (hcs : ∀ c ∈ cs, Text.isHexDigit c = true) (acc : Nat) :
    readDigits 16 acc cs = some (acc * 16 ^ cs.length + hexNumber cs) := by
  induction cs generalizing acc with
  | nil => simp [readDigits, hexNumber]
  | cons c cs ih =>
    rw [List.forall_mem_cons] at hcs
    obtain ⟨d, hd⟩ := Option.isSome_iff_exists.mp hcs.1
    have hunderscore : c ≠ '_' := by
      rintro rfl
      exact absurd hcs.1 (by decide)
    -- The first digit is the most significant one, the last in the order of `Nat.ofDigits`.
    have hcons : hexNumber (c :: cs) = d * 16 ^ cs.length + hexNumber cs := by
      simp only [hexNumber, List.map_cons, hd, Option.getD_some, List.reverse_cons,
        Nat.ofDigits_append, List.length_reverse, List.length_map, Nat.ofDigits_singleton]
      ring
    simp only [readDigits, if_neg hunderscore, hd, if_pos (Text.hexValue_lt hd), ih hcs.2, hcons,
      List.length_cons, Option.some.injEq]
    ring

theorem readInteger_of_isHexDigit (hcs : ∀ c ∈ cs, Text.isHexDigit c = true) (hne : cs ≠ []) :
    readInteger 16 cs = some (hexNumber cs : Int) := by
  cases cs with
  | nil => exact absurd rfl hne
  | cons c r =>
    have hc : ∀ d, Text.isHexDigit d = false → c ≠ d := by
      rintro d hd rfl
      rw [hcs c (.head _)] at hd
      cases hd
    have hminus : c ≠ '-' := hc '-' rfl
    have hplus : c ≠ '+' := hc '+' rfl
    have hunderscore : c ≠ '_' := hc '_' rfl
    have hread := readDigits_of_isHexDigit hcs 0
    rw [Nat.zero_mul, Nat.zero_add] at hread
    have hbody : readBody 16 (c :: r) = some (hexNumber (c :: r)) := by
      simpa [readBody, hunderscore] using hread
    simp [readInteger, readNatural, hminus, hplus, hbody]

/-! ## Literals between blanks -/

section blanks

variable {before after : List Char} (hbefore : ∀ c ∈ before, Text.isBlank c = true)
  (hafter : ∀ c ∈ after, Text.isBlank c = true)
include hbefore hafter

theorem trimChars_of_blanks (hcs : ∀ c ∈ cs, Text.isBlank c = false) :
    Text.trimChars (String.ofList (before ++ cs ++ after)).toList = cs := by
  rw [String.toList_ofList, Text.trimChars_append hbefore hafter, Text.trimChars_of_not_blank hcs]

theorem readNumber_spelling (t : Spelling) :
    readNumber (String.ofList (before ++ t.chars ++ after)) =
      readDecimal (String.ofList (before ++ t.chars ++ after)) := by
  have htrim := trimChars_of_blanks hbefore hafter fun _ => t.isBlank_of_mem_chars
  rw [readNumber, readDecimal, htrim, readTrimmedNumber, t.afterHexMark?_chars]

theorem readDecimal_spelling {t : Spelling} (hexponent : fitsSigned 128 t.exponentValue = true)
    (hscale : fitsSigned 64 t.scale = true) :
    readDecimal (String.ofList (before ++ t.chars ++ after)) =
      if t.scale.natAbs ≤ maxExponent then .ok ⟨t.mantissa, t.scale⟩
      else .error .exponentRange := by
  have htrim := trimChars_of_blanks hbefore hafter fun _ => t.isBlank_of_mem_chars
  have htext := Spelling.readDecimalText_chars hexponent hscale
  rw [readDecimal, htrim, readTrimmedDecimal, t.afterHexMark?_chars, htext]
  by_cases hrange : t.scale.natAbs ≤ maxExponent
  · simp [hrange]
  · simp [hrange]

theorem readNumber_hex {mark : Char} (hmark : mark = 'x' ∨ mark = 'X')
    (hcs : ∀ c ∈ cs, Text.isHexDigit c = true) (hne : cs ≠ []) :
    readNumber (String.ofList (before ++ '0' :: mark :: cs ++ after)) = .ok ⟨hexNumber cs, 0⟩ ∧
      readDecimal (String.ofList (before ++ '0' :: mark :: cs ++ after)) = .error .notDecimal := by
  have hblank : ∀ c ∈ '0' :: mark :: cs, Text.isBlank c = false := by
    rw [List.forall_mem_cons, List.forall_mem_cons]
    refine ⟨rfl, ?_, fun c hc => Text.isBlank_of_isHexDigit (hcs c hc)⟩
    rcases hmark with rfl | rfl <;> rfl
  have hhex : Text.afterHexMark? ('0' :: mark :: cs) = some cs := by
    rcases hmark with rfl | rfl <;> rfl
  have htrim := trimChars_of_blanks hbefore hafter hblank
  constructor
  · rw [readNumber, htrim, readTrimmedNumber, hhex]
    simp [readInteger_of_isHexDigit hcs hne, ofInt]
  · rw [readDecimal, htrim, readTrimmedDecimal, hhex]
    rfl

end blanks

/-- Whatever blanks stand around it, a decimal literal is read as its digits and its places, unless
those are more than 10000 in either direction, and by both readers alike. A hexadecimal literal is
read by one of them only, as its digits in base 16. -/
theorem readNumber_exact :
    (∀ (t : Spelling) (before after : List Char), (∀ c ∈ before, Text.isBlank c = true) →
      (∀ c ∈ after, Text.isBlank c = true) →
      readNumber (String.ofList (before ++ t.chars ++ after)) =
          readDecimal (String.ofList (before ++ t.chars ++ after)) ∧
        (-2 ^ 127 ≤ t.exponentValue → t.exponentValue < 2 ^ 127 → -2 ^ 63 ≤ t.scale →
          t.scale < 2 ^ 63 →
          readNumber (String.ofList (before ++ t.chars ++ after)) =
            if t.scale.natAbs ≤ 10000 then .ok ⟨t.mantissa, t.scale⟩
            else .error .exponentRange)) ∧
    LiteralFault.exponentRange.message = "exponent out of range (limit 10000)" ∧
    ∀ (mark : Char) (h before after : List Char), mark = 'x' ∨ mark = 'X' →
      (∀ c ∈ h, Text.isHexDigit c = true) → h ≠ [] → (∀ c ∈ before, Text.isBlank c = true) →
      (∀ c ∈ after, Text.isBlank c = true) →
      readNumber (String.ofList (before ++ '0' :: mark :: h ++ after)) = .ok ⟨hexNumber h, 0⟩ ∧
        readDecimal (String.ofList (before ++ '0' :: mark :: h ++ after)) = .error .notDecimal := by
  refine ⟨fun t before after hbefore hafter => ?_, by decide, fun mark h before after => ?_⟩
  · have hboth := readNumber_spelling hbefore hafter t
    refine ⟨hboth, fun hlow hhigh hslow hshigh => ?_⟩
    rw [hboth]
    exact readDecimal_spelling hbefore hafter (fitsSigned_iff.mpr ⟨hlow, hhigh⟩)
      (fitsSigned_iff.mpr ⟨hslow, hshigh⟩)
  · intro hmark hh hne hbefore hafter
    exact readNumber_hex hbefore hafter hmark hh hne

/-- Five tenths below zero, with a negative exponent of these digits. -/
def minusTenths (digits : List Char) (hdigits : ∀ c ∈ digits, c.isDigit = true)
    (hne : digits ≠ []) : Spelling where
  sign := .minus
  whole := []
  fraction := ['5']
  pointed := true
  exponent := some ⟨'E', .minus, digits, .inr rfl, hdigits, hne⟩
  isDigit_whole := nofun
  isDigit_fraction := List.all_eq_true.mp rfl
  digits_ne_nil := by decide
  pointed_of_fraction := fun _ => rfl

/-- The last exponent that is in range, and the first that is not; and a hexadecimal literal. -/
theorem readNumber_exact_limits :
    readNumber "\t-.5E-9999 " = .ok ⟨-5, 10000⟩ ∧
      readDecimal "-.5E-10000" = .error .exponentRange ∧
      readNumber "0Xff " = .ok ⟨255, 0⟩ ∧ readDecimal "0Xff " = .error .notDecimal := by
  obtain ⟨hdecimal, -, hhex⟩ := readNumber_exact
  have hin := hdecimal (minusTenths ['9', '9', '9', '9'] (List.all_eq_true.mp rfl) nofun)
    ['\t'] [' '] (List.all_eq_true.mp rfl) (List.all_eq_true.mp rfl)
  have hout := hdecimal (minusTenths ['1', '0', '0', '0', '0'] (List.all_eq_true.mp rfl) nofun)
    [] [] nofun nofun
  have hff := hhex 'X' ['f', 'f'] [] [' '] (.inr rfl) (List.all_eq_true.mp rfl) nofun nofun
    (List.all_eq_true.mp rfl)
  refine ⟨hin.2 (by decide) (by decide) (by decide) (by decide), ?_, hff.1, hff.2⟩
  exact hout.1.symm.trans (hout.2 (by decide) (by decide) (by decide) (by decide))

end Scenario.Decimal
