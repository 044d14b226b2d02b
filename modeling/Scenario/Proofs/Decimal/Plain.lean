import Mathlib.Data.List.DropRight
import Scenario.Proofs.Decimal.Digits
import Scenario.Proofs.Decimal.Number

/-!
# Plain rendering is canonical

A number is written out in full as a `FullText`: no exponent, no needless zero in front and none at
the end of the fraction. Such a text is read back as the number that it stands for
(`FullText.readNumber_chars`), and the rendering of a decimal within the range of exponents is one
of that decimal's number (`exists_fullText`).

The rendering does not depend on the form: a zero more at the end of the integer and one more place
after the point leave it as it is (`plain_shift_one`), and by induction so does any number of them
(`plain_shift`), which is all that two forms of one number differ by (`same_iff_shift`). Beyond the
range, the rendering has an exponent that is refused when it is read (`readNumber_of_wide`).
-/

namespace Scenario.Decimal

variable {v w : Decimal} {cs ds : List Char}

/-! ## Forms of one number -/

/-- The same number with `d` zeros more at the end of its integer. -/
def shift (v : Decimal) (d : Nat) : Decimal :=
  ⟨v.int * power d, v.scale + d⟩

theorem power_succ (d : Nat) : power (d + 1) = power d * 10 :=
  congrArg Int.ofNat (Nat.pow_succ ..)

theorem shift_zero (v : Decimal) : v.shift 0 = v := by
  rw [shift, power_zero, mul_one, Nat.cast_zero, add_zero]

theorem shift_succ (v : Decimal) (d : Nat) : v.shift (d + 1) = (v.shift d).shift 1 := by
  rw [shift, shift, shift, power_succ, power_succ, power_zero, one_mul, mul_assoc, Nat.cast_add,
    add_assoc]

/-- Two forms of one number differ by zeros at the end of the integer. -/
theorem same_iff_shift : v.same w = true ↔ (∃ d, w = v.shift d) ∨ ∃ d, v = w.shift d := by
  have hshift {a b : Decimal} (hle : a.scale ≤ b.scale) :
      a.int * power (b.scale - a.scale).toNat = b.int ↔ ∃ d, b = a.shift d := by
    constructor
    · intro h
      refine ⟨(b.scale - a.scale).toNat, ?_⟩
      rw [shift, h, Int.toNat_of_nonneg (by omega), add_sub_cancel]
    · rintro ⟨d, rfl⟩
      rw [shift, add_sub_cancel_left, Int.toNat_natCast]
  rw [same]
  split
  · rename_i hle
    rw [shiftsTo_iff, hshift hle, or_iff_left_of_imp]
    rintro ⟨d, rfl⟩
    -- The scale of the shifted form is no smaller, so nothing was shifted.
    obtain rfl : d = 0 := by
      simp only [shift] at hle
      omega
    exact ⟨0, by rw [shift_zero, shift_zero]⟩
  · rename_i hle
    rw [shiftsTo_iff, hshift (by omega), or_iff_right_of_imp]
    rintro ⟨d, rfl⟩
    simp only [shift] at hle
    omega

/-! ## Texts that are read -/

theorem fitsSigned_iff {bits : Nat} {i : Int} :
    fitsSigned bits i = true ↔ -2 ^ (bits - 1) ≤ i ∧ i < 2 ^ (bits - 1) := by
  simp [fitsSigned]

/-- The characters of a rendering. -/
def isPlainChar (c : Char) : Bool :=
  c.isDigit || c == '-' || c == '.' || c == 'e'

theorem isBlank_of_isPlainChar {c : Char} (hc : isPlainChar c = true) : Text.isBlank c = false := by
  simp only [isPlainChar, Bool.or_eq_true, beq_iff_eq] at hc
  rcases hc with ((hc | rfl) | rfl) | rfl
  · obtain ⟨hlow, hhigh⟩ := Char.isDigit_iff_toNat.mp hc
    simp only [Char.reduceToNat] at hlow hhigh
    simp [Text.isBlank, Text.blankRanges]
    omega
  all_goals decide

/-- No blanks to trim and no mark of a hexadecimal literal: a rendering is read as a decimal. -/
theorem readNumber_ofList (hcs : ∀ c ∈ cs, isPlainChar c = true) (h : readDecimalText cs = some v) :
    readNumber (String.ofList cs) =
      if maxExponent < v.scale.natAbs then .error .exponentRange else .ok v := by
  have hhex : Text.afterHexMark? cs = none := by
    cases hmark : Text.afterHexMark? cs with
    | none => rfl
    | some r =>
      rcases Text.afterHexMark?_eq_some_iff.mp hmark with rfl | rfl
      · exact absurd (hcs 'x' (by simp)) (by decide)
      · exact absurd (hcs 'X' (by simp)) (by decide)
  have htrim : Text.trimChars cs = cs :=
    Text.trimChars_of_not_blank fun c hc => isBlank_of_isPlainChar (hcs c hc)
  rw [readNumber, String.toList_ofList, htrim]
  simp [readTrimmedNumber, readTrimmedDecimal, hhex, h]

/-- Digits before an exponent, and after it if there is one. -/
theorem readDecimalText_append {base r : List Char} {x i : Int}
    (hbase : ∀ c ∈ base, isExponentMark c = false) (hr : r.head?.all isExponentMark = true)
    (hx : exponent? r = some x) (hi : readInteger 10 (splitPoint base).1 = some i)
    (hfit : fitsSigned 64 ((splitPoint base).2 - x) = true) :
    readDecimalText (base ++ r) = some ⟨i, (splitPoint base).2 - x⟩ := by
  have hall : ∀ c ∈ base, (!isExponentMark c) = true := fun c hc => by rw [hbase c hc]; rfl
  have htake : (base ++ r).takeWhile (!isExponentMark ·) = base := by
    rw [List.takeWhile_append_of_pos hall]
    cases r with
    | nil => simp
    | cons c r => simp_all
  have hdrop : (base ++ r).dropWhile (!isExponentMark ·) = r := by
    rw [List.dropWhile_append_of_pos hall]
    cases r with
    | nil => rfl
    | cons c r => simp_all
  refine readDecimalText_eq_some_iff.mpr ⟨x, i, ?_, ?_, ?_, ?_⟩ <;> simp only [htake, hdrop]
  · exact hx
  · exact hi
  · exact hfit

theorem splitPoint_append_point (hcs : '.' ∉ cs) (ds : List Char) :
    splitPoint (cs ++ '.' :: ds) = (cs ++ ds, ds.countP (· != '_')) := by
  have hall : ∀ c ∈ cs, (c != '.') = true := fun c hc => bne_iff_ne.mpr fun h => hcs (h ▸ hc)
  simp [splitPoint, List.takeWhile_append_of_pos hall, List.dropWhile_append_of_pos hall]

theorem splitPoint_of_no_point (hcs : '.' ∉ cs) : splitPoint cs = (cs, 0) := by
  have hall : ∀ c ∈ cs, (c != '.') = true := fun c hc => bne_iff_ne.mpr fun h => hcs (h ▸ hc)
  have htake : cs.takeWhile (· != '.') = cs := List.takeWhile_eq_self_iff.mpr hall
  have hdrop : cs.dropWhile (· != '.') = [] := List.dropWhile_eq_nil_iff.mpr hall
  simp [splitPoint, htake, hdrop]

theorem isExponentMark_of_isDigit {c : Char} (hc : c.isDigit = true) :
    isExponentMark c = false := by
  have hlower : c ≠ 'e' := Text.ne_of_isDigit hc rfl
  have hupper : c ≠ 'E' := Text.ne_of_isDigit hc rfl
  simp [isExponentMark, hlower, hupper]

theorem eq_of_mem_minus {c : Char} {negative : Bool} (hc : c ∈ minus negative) : c = '-' := by
  cases negative with
  | true => exact List.mem_singleton.mp hc
  | false => cases hc

theorem isDigit_or_eq_of_mem_minus_append {c : Char} {negative : Bool}
    (hds : ∀ c ∈ ds, c.isDigit = true) (hc : c ∈ minus negative ++ ds) :
    c.isDigit = true ∨ c = '-' :=
  (List.mem_append.mp hc).elim (fun h => .inr (eq_of_mem_minus h)) fun h => .inl (hds c h)

theorem isPlainChar_of_mem_minus_append {c : Char} {negative : Bool}
    (hds : ∀ c ∈ ds, c.isDigit = true) (hc : c ∈ minus negative ++ ds) : isPlainChar c = true := by
  rcases isDigit_or_eq_of_mem_minus_append hds hc with h | rfl
  · simp [isPlainChar, h]
  · rfl

theorem isExponentMark_of_mem_minus_append {c : Char} {negative : Bool}
    (hds : ∀ c ∈ ds, c.isDigit = true) (hc : c ∈ minus negative ++ ds) :
    isExponentMark c = false := by
  rcases isDigit_or_eq_of_mem_minus_append hds hc with h | rfl
  · exact isExponentMark_of_isDigit h
  · rfl

theorem point_notMem_minus_append (negative : Bool) (hds : ∀ c ∈ ds, c.isDigit = true) :
    '.' ∉ minus negative ++ ds := by
  intro hmem
  rcases isDigit_or_eq_of_mem_minus_append hds hmem with h | h
  · exact absurd h (by decide)
  · exact absurd h (by decide)

/-! ## Numbers written out in full -/

/-- A number written out in full: the digits before and after its point, and a minus sign if it is
below zero. -/
structure FullText where
  negative : Bool
  whole : List Char
  fraction : List Char
  isDigit_whole : ∀ c ∈ whole, c.isDigit = true
  isDigit_fraction : ∀ c ∈ fraction, c.isDigit = true
  whole_ne_nil : whole ≠ []
  /-- There is no needless zero in front. -/
  head_whole : whole.head? = some '0' → whole = ['0']
  /-- There is no zero at the end of the fraction. -/
  getLast_fraction : fraction.getLast? ≠ some '0'
  /-- Zero has no sign. -/
  fraction_ne_nil : negative = true → whole = ['0'] → fraction ≠ []

namespace FullText

/-- The text. A point is written only before a fraction. -/
def chars (t : FullText) : List Char :=
  minus t.negative ++ t.whole ++ if t.fraction.isEmpty then [] else '.' :: t.fraction

/-- The number that the text stands for. -/
def value (t : FullText) : Decimal :=
  ⟨signed t.negative (Nat.ofDigitChars 10 (t.whole ++ t.fraction) 0), t.fraction.length⟩

/-- There is a sign, digits and a point, and no exponent. -/
theorem mem_chars {t : FullText} {c : Char} (hc : c ∈ t.chars) :
    isPlainChar c = true ∧ isExponentMark c = false := by
  rw [chars, List.mem_append] at hc
  rcases hc with hc | hc
  · exact ⟨isPlainChar_of_mem_minus_append t.isDigit_whole hc,
      isExponentMark_of_mem_minus_append t.isDigit_whole hc⟩
  · split at hc
    · cases hc
    · rcases List.mem_cons.mp hc with rfl | hc
      · exact ⟨rfl, rfl⟩
      · have hdigit := t.isDigit_fraction c hc
        exact ⟨by simp [isPlainChar, hdigit], isExponentMark_of_isDigit hdigit⟩

theorem splitPoint_chars (t : FullText) :
    splitPoint t.chars = (minus t.negative ++ (t.whole ++ t.fraction), t.fraction.length) := by
  have hpoint := point_notMem_minus_append t.negative t.isDigit_whole
  have hplaces : t.fraction.countP (· != '_') = t.fraction.length :=
    List.countP_eq_length.mpr fun c hc =>
      bne_iff_ne.mpr (Text.ne_of_isDigit (t.isDigit_fraction c hc) rfl)
  rw [chars]
  split
  · rename_i hempty
    rw [List.isEmpty_iff] at hempty
    rw [List.append_nil, splitPoint_of_no_point hpoint, hempty, List.append_nil]
    rfl
  · rw [splitPoint_append_point hpoint, hplaces, List.append_assoc]

/-- A number that is written out in full is read back. -/
theorem readNumber_chars (t : FullText) (ht : t.fraction.length ≤ maxExponent) :
    readNumber (String.ofList t.chars) = .ok t.value := by
  have hread : readInteger 10 (splitPoint t.chars).1 =
      some (signed t.negative (Nat.ofDigitChars 10 (t.whole ++ t.fraction) 0)) := by
    rw [splitPoint_chars]
    refine readInteger_signed t.negative (fun c hc => ?_) (by simp [t.whole_ne_nil])
    exact (List.mem_append.mp hc).elim (t.isDigit_whole c) (t.isDigit_fraction c)
  have hfit : fitsSigned 64 ((splitPoint t.chars).2 - 0) = true := by
    rw [maxExponent] at ht
    rw [splitPoint_chars, fitsSigned_iff]
    norm_num
    omega
  have htext := readDecimalText_append (fun c hc => (mem_chars hc).2) (r := []) rfl rfl hread hfit
  rw [List.append_nil, splitPoint_chars, sub_zero] at htext
  rw [readNumber_ofList (fun c hc => (mem_chars hc).1) htext]
  exact if_neg (by simpa using ht)

end FullText

/-! ## Digits of an integer -/

theorem head?_toDigits {n : Nat} (hn : n ≠ 0) : (Nat.toDigits 10 n).head? ≠ some '0' := by
  induction n using Nat.strongRecOn with
  | ind n ih =>
    rcases Nat.lt_or_ge n 10 with hlt | hge
    · rw [Nat.toDigits_of_lt_base hlt]
      simpa [Nat.digitChar_eq_zero] using hn
    · rw [Nat.toDigits_of_base_le (by decide) hge,
        List.head?_append_of_ne_nil _ Nat.toDigits_ne_nil]
      exact ih _ (by omega) (by omega)

theorem toDigits_mul_ten {n : Nat} (hn : n ≠ 0) :
    Nat.toDigits 10 (n * 10) = Nat.toDigits 10 n ++ ['0'] := by
  have hzero := Nat.toDigits_append_toDigits (b := 10) (d := 0) (by decide) (Nat.pos_of_ne_zero hn)
    (by decide)
  rw [Nat.add_zero, Nat.mul_comm] at hzero
  exact hzero.symm

theorem isDigit_toDigits (n : Nat) : ∀ c ∈ Nat.toDigits 10 n, c.isDigit = true := fun _ hc =>
  Nat.isDigit_of_mem_toDigits (by decide) (by decide) hc

theorem isDigit_digits (v : Decimal) : ∀ c ∈ v.digits, c.isDigit = true :=
  isDigit_toDigits _

theorem ofDigitChars_digits (v : Decimal) : Nat.ofDigitChars 10 v.digits 0 = v.int.natAbs :=
  Nat.ofDigitChars_ten_toDigits

theorem signed_natAbs (i : Int) : signed (decide (i < 0)) i.natAbs = i := by
  rcases lt_or_ge i 0 with hneg | hpos
  · rw [decide_eq_true hneg]
    exact (Int.eq_neg_natAbs_of_nonpos hneg.le).symm
  · rw [decide_eq_false (not_lt.mpr hpos)]
    exact Int.natAbs_of_nonneg hpos

theorem signed_mul_power (negative : Bool) (n d : Nat) :
    signed negative (10 ^ d * n) = signed negative n * power d := by
  have hmul : ((10 ^ d * n : Nat) : Int) = n * power d := by
    rw [Nat.mul_comm, Nat.cast_mul]
    rfl
  cases negative with
  | true => exact (congrArg Neg.neg hmul).trans (neg_mul _ _).symm
  | false => exact hmul

/-! ## Zeros at the end -/

theorem exists_trimZeros (ds : List Char) : ∃ k, ds = trimZeros ds ++ List.replicate k '0' := by
  have hzeros : ∀ c ∈ ds.reverse.takeWhile (· == '0'), c = '0' := by
    intro c hc
    simpa using List.mem_takeWhile_imp hc
  have hparts := List.takeWhile_append_dropWhile (p := (· == '0')) (l := ds.reverse)
  rw [List.eq_replicate_of_mem hzeros, ← List.reverse_inj, List.reverse_append,
    List.reverse_replicate, List.reverse_reverse] at hparts
  exact ⟨_, hparts.symm⟩

theorem getLast?_trimZeros (ds : List Char) : (trimZeros ds).getLast? ≠ some '0' := by
  by_cases hne : trimZeros ds = []
  · rw [hne]
    exact nofun
  · have hlast := List.rdropWhile_last_not (· == '0') ds hne
    rw [List.getLast?_eq_some_getLast hne]
    exact fun hzero => hlast (beq_iff_eq.mpr (Option.some.inj hzero))

theorem trimZeros_concat_zero (ds : List Char) : trimZeros (ds ++ ['0']) = trimZeros ds :=
  List.rdropWhile_concat_pos (· == '0') ds '0' rfl

/-! ## Renderings -/

theorem plain_of_isZero (hv : v.int = 0) : v.plain = "0" :=
  if_pos (beq_iff_eq.mpr hv)

theorem plain_of_ne_zero (hv : v.int ≠ 0) :
    v.plain = String.ofList (minus (decide (v.int < 0)) ++ v.plainMagnitude) := by
  rw [plain, if_neg (by simpa [isZero] using hv), minus]
  simp

/-- Digits with enough zeros in front that one of them stands before the point. -/
def padded (ds : List Char) (s : Nat) : List Char :=
  List.replicate (s + 1 - ds.length) '0' ++ ds

theorem length_padded (ds : List Char) (s : Nat) : s < (padded ds s).length := by
  rw [padded, List.length_append, List.length_replicate]
  omega

theorem padded_of_lt {s : Nat} (hs : s < ds.length) : padded ds s = ds := by
  rw [padded, Nat.sub_eq_zero_of_le hs]
  rfl

theorem ofDigitChars_padded (ds : List Char) (s : Nat) :
    Nat.ofDigitChars 10 (padded ds s) 0 = Nat.ofDigitChars 10 ds 0 := by
  rw [padded, Nat.ofDigitChars_append, Nat.ofDigitChars_replicate_zero, Nat.mul_zero]

/-- The digits before the point. -/
def wholeOf (ds : List Char) (s : Nat) : List Char :=
  (padded ds s).take ((padded ds s).length - s)

/-- The digits after the point. -/
def fractionOf (ds : List Char) (s : Nat) : List Char :=
  trimZeros ((padded ds s).drop ((padded ds s).length - s))

theorem pointed_eq (ds : List Char) (s : Nat) :
    pointed ds s = wholeOf ds s ++
      if (fractionOf ds s).isEmpty then [] else '.' :: fractionOf ds s := by
  change (if (fractionOf ds s).isEmpty then wholeOf ds s
    else wholeOf ds s ++ '.' :: fractionOf ds s) = _
  split
  · rw [List.append_nil]
  · rfl

/-- Only zeros are lost. -/
theorem exists_padded_eq (ds : List Char) (s : Nat) :
    ∃ k, padded ds s = wholeOf ds s ++ fractionOf ds s ++ List.replicate k '0' ∧
      (fractionOf ds s).length + k = s := by
  obtain ⟨k, hk⟩ := exists_trimZeros ((padded ds s).drop ((padded ds s).length - s))
  refine ⟨k, ?_, ?_⟩
  · rw [List.append_assoc]
    exact ((List.take_append_drop _ _).symm.trans (congrArg _ hk))
  · have hlength := congrArg List.length hk
    have hlt := length_padded ds s
    rw [List.length_drop, List.length_append, List.length_replicate] at hlength
    rw [fractionOf]
    omega

theorem isDigit_of_mem_zeros {d : Nat} {c : Char} (hc : c ∈ List.replicate d '0') :
    c.isDigit = true := by
  rw [List.eq_of_mem_replicate hc]
  rfl

theorem isDigit_of_mem_padded (hds : ∀ c ∈ ds, c.isDigit = true) {s : Nat} {c : Char}
    (hc : c ∈ padded ds s) : c.isDigit = true :=
  (List.mem_append.mp hc).elim isDigit_of_mem_zeros (hds c)

theorem wholeOf_ne_nil (ds : List Char) (s : Nat) : wholeOf ds s ≠ [] := by
  have hlt := length_padded ds s
  rw [← List.length_pos_iff, wholeOf, List.length_take]
  omega

/-- The only zero that stands in front is the one that was put there. -/
theorem head?_wholeOf {s : Nat} (hds : ds.head? ≠ some '0')
    (hzero : (wholeOf ds s).head? = some '0') : wholeOf ds s = ['0'] := by
  rcases Nat.lt_or_ge s ds.length with hlong | hshort
  · rw [wholeOf, padded_of_lt hlong, List.head?_take, if_neg (by omega)] at hzero
    exact absurd hzero hds
  · obtain ⟨r, hr⟩ : ∃ r, padded ds s = '0' :: r := by
      rw [padded, Nat.succ_sub hshort]
      exact ⟨_, rfl⟩
    have hlength : (padded ds s).length - s = 1 := by
      rw [padded, List.length_append, List.length_replicate]
      omega
    rw [wholeOf, hlength, hr]
    rfl

/-- Zeros at the end of the digits shift the number. -/
theorem ofDigitChars_append_zeros (ds : List Char) (d : Nat) :
    Nat.ofDigitChars 10 (ds ++ List.replicate d '0') 0 = 10 ^ d * Nat.ofDigitChars 10 ds 0 := by
  rw [Nat.ofDigitChars_append, Nat.ofDigitChars_replicate_zero]

theorem head?_digits (hv : v.int ≠ 0) : v.digits.head? ≠ some '0' :=
  head?_toDigits (Int.natAbs_ne_zero.mpr hv)

/-- Without places after the point, the digits are followed by the zeros that the scale stands
for. -/
theorem exists_fullText_of_scale_nonpos (hv : v.int ≠ 0) (hs : v.scale ≤ 0) :
    ∃ t : FullText, t.negative = decide (v.int < 0) ∧
      t.whole = v.digits ++ List.replicate v.scale.natAbs '0' ∧ t.fraction = [] ∧
      t.value = v.shift v.scale.natAbs := by
  have hne : v.digits ≠ [] := Nat.toDigits_ne_nil
  have hhead : (v.digits ++ List.replicate v.scale.natAbs '0').head? ≠ some '0' := by
    rw [List.head?_append_of_ne_nil _ hne]
    exact head?_digits hv
  have hdigit : ∀ c ∈ v.digits ++ List.replicate v.scale.natAbs '0', c.isDigit = true :=
    fun c hc => (List.mem_append.mp hc).elim (isDigit_digits v c) isDigit_of_mem_zeros
  obtain ⟨t, hnegative, hwhole, hfraction⟩ : ∃ t : FullText, t.negative = decide (v.int < 0) ∧
      t.whole = v.digits ++ List.replicate v.scale.natAbs '0' ∧ t.fraction = [] :=
    ⟨{ negative := decide (v.int < 0)
       whole := v.digits ++ List.replicate v.scale.natAbs '0'
       fraction := []
       isDigit_whole := hdigit
       isDigit_fraction := nofun
       whole_ne_nil := List.append_ne_nil_of_left_ne_nil hne _
       head_whole := fun hzero => absurd hzero hhead
       getLast_fraction := nofun
       fraction_ne_nil := fun _ hzero => absurd (hzero ▸ rfl) hhead }, rfl, rfl, rfl⟩
  refine ⟨t, hnegative, hwhole, hfraction, ?_⟩
  rw [FullText.value, hnegative, hwhole, hfraction, List.append_nil, ofDigitChars_append_zeros,
    ofDigitChars_digits, signed_mul_power, signed_natAbs, shift]
  refine congrArg (Decimal.mk _) ?_
  rw [List.length_nil]
  omega

/-- With places after the point, only zeros at the end of the fraction are lost. -/
theorem exists_fullText_of_scale_pos (hv : v.int ≠ 0) (hs : 0 < v.scale) :
    ∃ t : FullText, t.negative = decide (v.int < 0) ∧
      t.whole = wholeOf v.digits v.scale.natAbs ∧ t.fraction = fractionOf v.digits v.scale.natAbs ∧
      ∃ k, v = t.value.shift k := by
  obtain ⟨k, hpadded, hk⟩ := exists_padded_eq v.digits v.scale.natAbs
  have hint := ofDigitChars_padded v.digits v.scale.natAbs
  rw [hpadded, ofDigitChars_append_zeros, ofDigitChars_digits] at hint
  have hdigit : ∀ c ∈ wholeOf v.digits v.scale.natAbs ++ fractionOf v.digits v.scale.natAbs,
      c.isDigit = true := by
    intro c hc
    refine isDigit_of_mem_padded (s := v.scale.natAbs) (isDigit_digits v) ?_
    rw [hpadded]
    exact List.mem_append_left _ hc
  have hzero : wholeOf v.digits v.scale.natAbs = ['0'] →
      fractionOf v.digits v.scale.natAbs ≠ [] := by
    -- Zeros alone would be the number zero.
    intro hwhole hfraction
    rw [hwhole, hfraction] at hint
    exact Int.natAbs_ne_zero.mpr hv (hint.symm.trans (Nat.mul_zero _))
  obtain ⟨t, hnegative, hwhole, hfraction⟩ : ∃ t : FullText, t.negative = decide (v.int < 0) ∧
      t.whole = wholeOf v.digits v.scale.natAbs ∧
      t.fraction = fractionOf v.digits v.scale.natAbs :=
    ⟨{ negative := decide (v.int < 0)
       whole := wholeOf v.digits v.scale.natAbs
       fraction := fractionOf v.digits v.scale.natAbs
       isDigit_whole := fun c hc => hdigit c (List.mem_append_left _ hc)
       isDigit_fraction := fun c hc => hdigit c (List.mem_append_right _ hc)
       whole_ne_nil := wholeOf_ne_nil _ _
       head_whole := head?_wholeOf (head?_digits hv)
       getLast_fraction := getLast?_trimZeros _
       fraction_ne_nil := fun _ => hzero }, rfl, rfl, rfl⟩
  refine ⟨t, hnegative, hwhole, hfraction, k, ?_⟩
  rw [shift, FullText.value, hnegative, hwhole, hfraction, ← signed_mul_power, hint, signed_natAbs]
  have hscale : v.scale = (fractionOf v.digits v.scale.natAbs).length + k := by omega
  exact congrArg (Decimal.mk v.int) hscale

/-- Within the range of exponents, a decimal is rendered as its number written out in full. -/
theorem exists_fullText (v : Decimal) (hv : v.scale.natAbs ≤ maxExponent) :
    ∃ t : FullText, v.plain = String.ofList t.chars ∧ t.value.same v = true ∧
      t.fraction.length ≤ maxExponent := by
  rcases eq_or_ne v.int 0 with hzero | hne
  · have hdigit : ∀ c ∈ ['0'], c.isDigit = true := List.forall_mem_singleton.mpr rfl
    refine ⟨⟨false, ['0'], [], hdigit, nofun, nofun, fun _ => rfl, nofun, nofun⟩, ?_, ?_, ?_⟩
    · exact plain_of_isZero hzero
    · exact same_iff_toRat_eq.mpr ((toRat_eq_zero_iff.mpr rfl).trans
        (toRat_eq_zero_iff.mpr hzero).symm)
    · exact Nat.zero_le _
  rcases le_or_gt v.scale 0 with hs | hs
  · obtain ⟨t, hnegative, hwhole, hfraction, hvalue⟩ := exists_fullText_of_scale_nonpos hne hs
    refine ⟨t, ?_, ?_, ?_⟩
    · rw [plain_of_ne_zero hne, plainMagnitude, if_neg (by omega), if_pos hs, FullText.chars,
        hnegative, hwhole, hfraction]
      simp
    · exact same_iff_shift.mpr (.inr ⟨_, hvalue⟩)
    · rw [hfraction]
      exact Nat.zero_le _
  · obtain ⟨t, hnegative, hwhole, hfraction, k, hvalue⟩ := exists_fullText_of_scale_pos hne hs
    refine ⟨t, ?_, ?_, ?_⟩
    · rw [plain_of_ne_zero hne, plainMagnitude, if_neg (by omega), if_neg (by omega), pointed_eq,
        FullText.chars, hnegative, hwhole, hfraction, List.append_assoc]
    · exact same_iff_shift.mpr (.inl ⟨k, hvalue⟩)
    · have hscale : v.scale = t.fraction.length + k := congrArg Decimal.scale hvalue
      omega

/-! ## The rendering of a number in another form -/

theorem digits_shift_one (hv : v.int ≠ 0) : (v.shift 1).digits = v.digits ++ ['0'] := by
  rw [digits, digits, shift, Int.natAbs_mul, natAbs_power]
  exact toDigits_mul_ten (Int.natAbs_ne_zero.mpr hv)

theorem padded_concat_zero (ds : List Char) (s : Nat) :
    padded (ds ++ ['0']) (s + 1) = padded ds s ++ ['0'] := by
  rw [padded, padded, List.length_append, List.length_singleton, Nat.add_sub_add_right,
    List.append_assoc]

/-- The point stays where it is, and the zero is dropped with those at the end of the fraction. -/
theorem pointed_concat_zero (ds : List Char) (s : Nat) :
    pointed (ds ++ ['0']) (s + 1) = pointed ds s := by
  have hlength : (padded ds s ++ ['0']).length - (s + 1) = (padded ds s).length - s := by
    rw [List.length_append, List.length_singleton, Nat.add_sub_add_right]
  have hwhole : wholeOf (ds ++ ['0']) (s + 1) = wholeOf ds s := by
    rw [wholeOf, padded_concat_zero, hlength, List.take_append_of_le_length (Nat.sub_le _ _)]
    rfl
  have hfraction : fractionOf (ds ++ ['0']) (s + 1) = fractionOf ds s := by
    rw [fractionOf, padded_concat_zero, hlength, List.drop_append_of_le_length (Nat.sub_le _ _),
      trimZeros_concat_zero]
    rfl
  rw [pointed_eq, pointed_eq, hwhole, hfraction]

theorem pointed_zero (hds : ds ≠ []) : pointed ds 0 = ds := by
  have hpadded := padded_of_lt (List.length_pos_of_ne_nil hds)
  rw [pointed_eq, wholeOf, fractionOf, hpadded, Nat.sub_zero, List.take_length, List.drop_length]
  exact List.append_nil ds

/-- Within the range, the rendering of the magnitude is the same with a zero more. -/
theorem plainMagnitude_shift_one (hv : v.int ≠ 0) (h : v.scale.natAbs ≤ maxExponent)
    (hshift : (v.scale + 1).natAbs ≤ maxExponent) :
    (v.shift 1).plainMagnitude = v.plainMagnitude := by
  have hscale : (v.shift 1).scale = v.scale + 1 := rfl
  rw [plainMagnitude, plainMagnitude, hscale, digits_shift_one hv, if_neg (not_lt.mpr hshift),
    if_neg (not_lt.mpr h)]
  rcases lt_trichotomy v.scale 0 with hneg | hzero | hpos
  · have hzeros : v.scale.natAbs = (v.scale + 1).natAbs + 1 := by omega
    rw [if_pos (by omega), if_pos hneg.le, hzeros, List.append_assoc]
    rfl
  · rw [if_neg (by omega), if_pos hzero.le, hzero]
    exact (pointed_concat_zero v.digits 0).trans
      ((pointed_zero Nat.toDigits_ne_nil).trans (List.append_nil _).symm)
  · have hplaces : (v.scale + 1).natAbs = v.scale.natAbs + 1 := by omega
    rw [if_neg (by omega), if_neg (by omega), hplaces, pointed_concat_zero]

theorem plain_shift_one (h : v.scale.natAbs ≤ maxExponent)
    (hshift : (v.scale + 1).natAbs ≤ maxExponent) : (v.shift 1).plain = v.plain := by
  rcases eq_or_ne v.int 0 with hzero | hne
  · rw [plain_of_isZero hzero, plain_of_isZero (by rw [shift, hzero, zero_mul])]
  · have hsign : (v.shift 1).int < 0 ↔ v.int < 0 := by
      change v.int * 10 < 0 ↔ v.int < 0
      omega
    have hint : (v.shift 1).int ≠ 0 := mul_ne_zero hne (by decide)
    rw [plain_of_ne_zero hint, plain_of_ne_zero hne, plainMagnitude_shift_one hne h hshift,
      decide_eq_decide.mpr hsign]

/-- Zeros at the end of the integer do not show. -/
theorem plain_shift (d : Nat) (h : v.scale.natAbs ≤ maxExponent)
    (hshift : (v.scale + d).natAbs ≤ maxExponent) : (v.shift d).plain = v.plain := by
  induction d with
  | zero => rw [shift_zero]
  | succ d ih =>
    have hscale : (v.shift d).scale = v.scale + d := rfl
    -- The scale in between is in the range, as both ends are.
    have hmid : (v.scale + d).natAbs ≤ maxExponent := by omega
    rw [shift_succ, plain_shift_one hmid (by omega), ih hmid]

theorem plain_of_same (hv : v.scale.natAbs ≤ maxExponent) (hw : w.scale.natAbs ≤ maxExponent)
    (h : v.same w = true) : v.plain = w.plain := by
  rcases same_iff_shift.mp h with ⟨d, rfl⟩ | ⟨d, rfl⟩
  · exact (plain_shift d hv hw).symm
  · exact plain_shift d hw hv

/-! ## Beyond the range -/

theorem toList_toString (i : Int) :
    (toString i).toList = minus (decide (i < 0)) ++ Nat.toDigits 10 i.natAbs := by
  rw [Int.toString_eq_repr, Int.repr_eq_if]
  split
  · rename_i hpos
    have habs : i.toNat = i.natAbs := by omega
    rw [decide_eq_false (not_lt.mpr hpos), Nat.toList_repr, habs]
    rfl
  · rename_i hneg
    have habs : (-i).toNat = i.natAbs := by omega
    rw [decide_eq_true (not_le.mp hneg), String.toList_append, Nat.toList_repr, habs]
    rfl

/-- An exponent within 128 bits is read back. -/
theorem readExponent_toString {i : Int} (hi : fitsSigned 128 i = true) :
    readExponent (toString i).toList = some i := by
  have hsigned :
      signed (decide (i < 0)) (Nat.ofDigitChars 10 (Nat.toDigits 10 i.natAbs) 0) = i := by
    rw [Nat.ofDigitChars_ten_toDigits, signed_natAbs]
  rw [toList_toString, readExponent_signed _ (isDigit_toDigits _) Nat.toDigits_ne_nil, hsigned]
  rw [hsigned]
  exact hi

/-- The digits of a decimal with an exponent for its scale are read as the decimal. -/
theorem readDecimalText_exponent (hfit : fitsSigned 64 v.scale = true) :
    readDecimalText (minus (decide (v.int < 0)) ++ v.digits ++
      'e' :: (toString (-v.scale)).toList) = some v := by
  have hwidth : fitsSigned 128 (-v.scale) = true := by
    rw [fitsSigned_iff] at hfit ⊢
    norm_num at hfit ⊢
    omega
  have hexponent : exponent? ('e' :: (toString (-v.scale)).toList) = some (-v.scale) :=
    readExponent_toString hwidth
  have hmark : ∀ c ∈ minus (decide (v.int < 0)) ++ v.digits, isExponentMark c = false :=
    fun c hc => isExponentMark_of_mem_minus_append (isDigit_digits v) hc
  have hsplit := splitPoint_of_no_point
    (point_notMem_minus_append (decide (v.int < 0)) (isDigit_digits v))
  have hint : readInteger 10 (splitPoint (minus (decide (v.int < 0)) ++ v.digits)).1 =
      some v.int := by
    rw [hsplit, readInteger_signed _ (isDigit_digits v) Nat.toDigits_ne_nil, ofDigitChars_digits,
      signed_natAbs]
  have hscale : ((splitPoint (minus (decide (v.int < 0)) ++ v.digits)).2 : Int) - -v.scale =
      v.scale := by
    rw [hsplit, Nat.cast_zero, zero_sub, neg_neg]
  rw [readDecimalText_append hmark rfl hexponent hint (by rw [hscale]; exact hfit), hscale]

/-- Beyond the range the rendering has an exponent, and is read as a number beyond the range. -/
theorem readNumber_of_wide (hv : v.int ≠ 0) (hwide : maxExponent < v.scale.natAbs)
    (hfit : fitsSigned 64 v.scale = true) : readNumber v.plain = .error .exponentRange := by
  have hplain : ∀ c ∈ minus (decide (v.int < 0)) ++ v.digits ++
      'e' :: (toString (-v.scale)).toList, isPlainChar c = true := by
    intro c hc
    rw [toList_toString] at hc
    rcases List.mem_append.mp hc with hc | hc
    · exact isPlainChar_of_mem_minus_append (isDigit_digits v) hc
    · rcases List.mem_cons.mp hc with rfl | hc
      · rfl
      · exact isPlainChar_of_mem_minus_append (isDigit_toDigits _) hc
  rw [plain_of_ne_zero hv, plainMagnitude, if_pos hwide, ← List.append_assoc,
    readNumber_ofList hplain (readDecimalText_exponent hfit), if_pos hwide]

/-! ## Rendering and reading -/

theorem readNumber_plain (hv : v.scale.natAbs ≤ maxExponent) :
    ∃ w, readNumber v.plain = .ok w ∧ w.same v = true := by
  obtain ⟨t, hplain, hsame, hplaces⟩ := exists_fullText v hv
  refine ⟨t.value, ?_, hsame⟩
  rw [hplain]
  exact t.readNumber_chars hplaces

theorem plain_eq_iff (hv : v.scale.natAbs ≤ maxExponent) (hw : w.scale.natAbs ≤ maxExponent) :
    v.plain = w.plain ↔ v.same w = true := by
  refine ⟨fun h => ?_, plain_of_same hv hw⟩
  obtain ⟨a, ha, hav⟩ := readNumber_plain hv
  obtain ⟨b, hb, hbw⟩ := readNumber_plain hw
  rw [h, hb] at ha
  cases ha
  exact (same_congr hav w).symm.trans hbw

/-- Within the range of exponents, a decimal is written out in full, its rendering is read back as
the same number, and there is one rendering for each number. Zero is `0` in every form, and any
other decimal beyond the range is refused when its rendering is read. -/
theorem plain_canonical :
    (∀ v : Decimal, v.scale.natAbs ≤ maxExponent →
      (∃ t : FullText, v.plain = String.ofList t.chars) ∧
        ∃ w, readNumber v.plain = .ok w ∧ w.same v = true) ∧
    (∀ v w : Decimal, v.scale.natAbs ≤ maxExponent → w.scale.natAbs ≤ maxExponent →
      (v.plain = w.plain ↔ v.same w = true)) ∧
    (∀ v : Decimal, v.int = 0 → v.plain = "0") ∧
    (∀ v : Decimal, v.int ≠ 0 → maxExponent < v.scale.natAbs → fitsSigned 64 v.scale = true →
      readNumber v.plain = .error .exponentRange) ∧
    maxExponent = 10000 ∧
    LiteralFault.exponentRange.message = "exponent out of range (limit 10000)" := by
  refine ⟨fun v hv => ⟨?_, readNumber_plain hv⟩, fun _ _ => plain_eq_iff, fun _ => plain_of_isZero,
    fun _ => readNumber_of_wide, rfl, rfl⟩
  obtain ⟨t, hplain, -⟩ := exists_fullText v hv
  exact ⟨t, hplain⟩

/-- Two forms of a negative number below one, a zero far beyond the range, and the two limits of the
scale. -/
theorem plain_canonical_limits :
    (⟨-50, 3⟩ : Decimal).plain = (⟨-5, 2⟩ : Decimal).plain ∧
    (∃ w, readNumber (⟨-50, 3⟩ : Decimal).plain = .ok w ∧ w.same ⟨-50, 3⟩ = true) ∧
    (⟨0, 20000⟩ : Decimal).plain = "0" ∧
    readNumber (⟨7, 2 ^ 63 - 1⟩ : Decimal).plain = .error .exponentRange ∧
    readNumber (⟨7, -2 ^ 63⟩ : Decimal).plain = .error .exponentRange :=
  ⟨(plain_canonical.2.1 _ _ (by decide) (by decide)).mpr (by decide),
    (plain_canonical.1 _ (by decide)).2, plain_canonical.2.2.1 _ rfl,
    plain_canonical.2.2.2.1 _ (by decide) (by decide) (by decide),
    plain_canonical.2.2.2.1 _ (by decide) (by decide) (by decide)⟩

end Scenario.Decimal
