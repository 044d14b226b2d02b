import Scenario.Decimal.Literal
import Scenario.Text.Fold

/-!
# Texts that are no numbers

A numeric literal begins with a sign, a digit or a point, once the blanks in front are gone. So a
text that begins with a letter is none (`readNumber_of_beginsWithLetter`), though some letters have
a place further inside a literal: at the front, `e` leaves no digits before the exponent, and `a`
to `f` are digits after `0x` only.
-/

namespace Scenario

namespace Text

variable {c : Char}

theorem toNat_of_isAlpha (hc : c.isAlpha = true) :
    65 ≤ c.toNat ∧ c.toNat ≤ 90 ∨ 97 ≤ c.toNat ∧ c.toNat ≤ 122 := by
  have hcase : c.isUpper = true ∨ c.isLower = true := Bool.or_eq_true_iff.mp hc
  have hle {d : Char} : c.val ≤ d.val ↔ c.toNat ≤ d.toNat := UInt32.le_iff_toNat_le
  have hge {d : Char} : c.val ≥ d.val ↔ d.toNat ≤ c.toNat := UInt32.le_iff_toNat_le
  refine hcase.imp (fun hupper => ?_) fun hlower => ?_
  · have hrange : c.val ≥ 'A'.val ∧ c.val ≤ 'Z'.val := of_decide_eq_true hupper
    exact ⟨hge.mp hrange.1, hle.mp hrange.2⟩
  · have hrange : decide (c.val ≥ 'a'.val) = true ∧ decide (c.val ≤ 'z'.val) = true :=
      Bool.and_eq_true_iff.mp hlower
    exact ⟨hge.mp (of_decide_eq_true hrange.1), hle.mp (of_decide_eq_true hrange.2)⟩

theorem isAlpha_of_toLower (hc : c.toLower.isAlpha = true) : c.isAlpha = true := by
  by_cases hupper : c.isUpper = true
  · exact Bool.or_eq_true_iff.mpr (.inl hupper)
  · have hrange : ¬(c.val ≥ 'A'.val ∧ c.val ≤ 'Z'.val) := fun h => hupper (decide_eq_true h)
    have hlower : c.toLower = c := dif_neg hrange
    rw [← hlower]
    exact hc

/-- Whether a text begins with a letter. It is seen in lower case, so texts that agree up to case
have the same answer. -/
def beginsWithLetter (s : String) : Bool :=
  (fold s).toList.head?.any Char.isAlpha

theorem exists_letter {s : String} (h : beginsWithLetter s = true) :
    ∃ c cs, s.toList = c :: cs ∧ c.isAlpha = true := by
  rw [beginsWithLetter, toList_fold] at h
  cases hs : s.toList with
  | nil =>
    rw [hs] at h
    cases h
  | cons c cs =>
    rw [hs] at h
    exact ⟨c, cs, rfl, isAlpha_of_toLower h⟩

theorem isBlank_of_isAlpha (hc : c.isAlpha = true) : isBlank c = false := by
  have hrange := toNat_of_isAlpha hc
  simp [isBlank, blankRanges]
  omega

theorem ne_of_isAlpha (hc : c.isAlpha = true) {d : Char} (hd : d.isAlpha = false) : c ≠ d := by
  rintro rfl
  rw [hc] at hd
  cases hd

theorem le_hexValue_of_isAlpha (hc : c.isAlpha = true) {d : Nat} (hd : hexValue c = some d) :
    10 ≤ d := by
  have hrange := toNat_of_isAlpha hc
  have hdigit : ¬('0' ≤ c ∧ c ≤ '9') := by
    rintro ⟨-, h⟩
    have hnine : c.toNat ≤ 57 := UInt32.le_iff_toNat_le.mp h
    omega
  rw [hexValue, if_neg hdigit] at hd
  split at hd
  · cases hd
    omega
  · split at hd
    · cases hd
      omega
    · cases hd

/-- Trimming leaves a text that begins with no blank its first character. -/
theorem exists_trimChars_cons (hc : isBlank c = false) (cs : List Char) :
    ∃ r, trimChars (c :: cs) = c :: r := by
  have hlast : [c].dropWhile isBlank = [c] := List.dropWhile_cons_of_neg (by simp [hc])
  rw [trimChars, List.dropWhile_cons_of_neg (by simp [hc]), List.reverse_cons,
    List.dropWhile_append, hlast]
  split
  · exact ⟨[], rfl⟩
  · exact ⟨_, List.reverse_concat⟩

end Text

namespace Decimal

section letters

variable {c : Char} (hc : c.isAlpha = true)
include hc

theorem readInteger_of_letter (cs : List Char) : readInteger 10 (c :: cs) = none := by
  have hminus : c ≠ '-' := Text.ne_of_isAlpha hc rfl
  have hplus : c ≠ '+' := Text.ne_of_isAlpha hc rfl
  have hunderscore : c ≠ '_' := Text.ne_of_isAlpha hc rfl
  have hdigits : readDigits 10 0 (c :: cs) = none := by
    rw [readDigits, if_neg hunderscore]
    split
    · rfl
    · rename_i d hd
      exact if_neg (Nat.not_lt.mpr (Text.le_hexValue_of_isAlpha hc hd))
  simp [readInteger, readNatural, readBody, hminus, hplus, hdigits]

theorem readInteger_splitPoint_of_letter (cs : List Char) :
    readInteger 10 (splitPoint ((c :: cs).takeWhile (!isExponentMark ·))).1 = none := by
  have hpoint : c ≠ '.' := Text.ne_of_isAlpha hc rfl
  -- Up to the exponent there is nothing, or something that begins with the letter.
  cases hmark : isExponentMark c with
  | true => simp [hmark, splitPoint, readInteger, readNatural, readBody]
  | false =>
    simp only [List.takeWhile_cons, hmark, splitPoint, Bool.not_false, if_true,
      bne_iff_ne.mpr hpoint, List.cons_append]
    exact readInteger_of_letter hc _

theorem readDecimalText_of_letter (cs : List Char) : readDecimalText (c :: cs) = none := by
  simp only [readDecimalText, readInteger_splitPoint_of_letter hc]
  simp

end letters

/-- A text that begins with a letter is no numeric literal. -/
theorem readNumber_of_beginsWithLetter {s : String} (h : Text.beginsWithLetter s = true) :
    readNumber s = .error .notNumber := by
  obtain ⟨c, cs, hs, hc⟩ := Text.exists_letter h
  obtain ⟨r, hr⟩ := Text.exists_trimChars_cons (Text.isBlank_of_isAlpha hc) cs
  have hzero : c ≠ '0' := Text.ne_of_isAlpha hc rfl
  have hhex : Text.afterHexMark? (c :: r) = none := by
    simp [Text.afterHexMark?, hzero]
  rw [readNumber, hs, hr, readTrimmedNumber, hhex]
  simp [readTrimmedDecimal, hhex, readDecimalText_of_letter hc]

end Decimal

end Scenario
