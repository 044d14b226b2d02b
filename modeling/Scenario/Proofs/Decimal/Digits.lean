import Mathlib.Algebra.Ring.Nat
import Scenario.Decimal.Literal
import Scenario.Proofs.Text

/-!
# Digits as they are read

What readers of numbers make of digits. Of digits alone the number is the one that core's
`Nat.ofDigitChars` gives (`readDigits_of_isDigit`), with a sign before them it is that number or its
negation (`readInteger_signed`), and after an exponent mark they move the point
(`readExponent_signed`).

Conversely, a text that is read has a digit, and what is read has no more digits than were written
(`readInteger_figures`), whatever underscores and zeros stand between them. As the figures of a
literal are the digits before its exponent, the number that a literal stands for has no more digits
than the literal has figures (`length_digits_le_figures`).
-/

namespace Scenario

namespace Decimal

/-! ## Digits alone -/

variable {cs ds : List Char} {acc n : Nat}

theorem readDigits_of_isDigit (hds : ∀ c ∈ ds, c.isDigit = true) (acc : Nat) :
    readDigits 10 acc ds = some (Nat.ofDigitChars 10 ds acc) := by
  induction ds generalizing acc with
  | nil => rfl
  | cons c ds ih =>
    rw [List.forall_mem_cons] at hds
    obtain ⟨hlow, hhigh⟩ := Char.isDigit_iff_toNat.mp hds.1
    have hlt : c.toNat - '0'.toNat < 10 := by
      simp only [Char.reduceToNat] at hlow hhigh ⊢
      omega
    have hunderscore : c ≠ '_' := Text.ne_of_isDigit hds.1 rfl
    simp only [readDigits, if_neg hunderscore, Text.hexValue_of_isDigit hds.1, if_pos hlt]
    rw [ih hds.2, Nat.ofDigitChars_cons, Nat.mul_comm]

theorem readBody_of_isDigit (hds : ∀ c ∈ ds, c.isDigit = true) (hne : ds ≠ []) :
    readBody 10 ds = some (Nat.ofDigitChars 10 ds 0) := by
  cases ds with
  | nil => exact absurd rfl hne
  | cons c r =>
    have hunderscore : c ≠ '_' := Text.ne_of_isDigit (hds c (.head _)) rfl
    have hbody : ((c :: r).isEmpty || (c :: r).head? == some '_') = false := by
      simp [hunderscore]
    rw [readBody, hbody]
    exact readDigits_of_isDigit hds 0

theorem readNatural_of_isDigit (hds : ∀ c ∈ ds, c.isDigit = true) (hne : ds ≠ []) :
    readNatural 10 ds = some (Nat.ofDigitChars 10 ds 0) := by
  rw [← readBody_of_isDigit hds hne]
  unfold readNatural
  split
  · exact absurd rfl (Text.ne_of_isDigit (hds '+' (.head _)) rfl)
  · rfl

/-- A minus sign, or none. -/
def minus (negative : Bool) : List Char :=
  if negative then ['-'] else []

/-- A number or its negation. -/
def signed (negative : Bool) (n : Nat) : Int :=
  if negative then -n else n

theorem readInteger_signed (negative : Bool) (hds : ∀ c ∈ ds, c.isDigit = true) (hne : ds ≠ []) :
    readInteger 10 (minus negative ++ ds) = some (signed negative (Nat.ofDigitChars 10 ds 0)) := by
  have hread := readNatural_of_isDigit hds hne
  cases ds with
  | nil => exact absurd rfl hne
  | cons c r =>
    have hc := hds c (.head _)
    have hplus : c ≠ '+' := Text.ne_of_isDigit hc rfl
    have hminus : c ≠ '-' := Text.ne_of_isDigit hc rfl
    cases negative with
    | true => simp [readInteger, minus, signed, hplus, hread]
    | false => simp [readInteger, minus, signed, hminus, hread]

theorem readPlainDigits_of_isDigit (hds : ∀ c ∈ ds, c.isDigit = true) (hne : ds ≠ []) :
    readPlainDigits ds = some (Nat.ofDigitChars 10 ds 0) := by
  rw [readPlainDigits, if_pos (List.all_eq_true.mpr hds), readBody_of_isDigit hds hne]

theorem readExponent_signed (negative : Bool) (hds : ∀ c ∈ ds, c.isDigit = true) (hne : ds ≠ [])
    (hfit : fitsSigned 128 (signed negative (Nat.ofDigitChars 10 ds 0)) = true) :
    readExponent (minus negative ++ ds) =
      some (signed negative (Nat.ofDigitChars 10 ds 0)) := by
  have hread := readPlainDigits_of_isDigit hds hne
  cases ds with
  | nil => exact absurd rfl hne
  | cons c r =>
    have hc := hds c (.head _)
    have hplus : c ≠ '+' := Text.ne_of_isDigit hc rfl
    have hminus : c ≠ '-' := Text.ne_of_isDigit hc rfl
    cases negative with
    | true => simpa [readExponent, minus, signed, hread, Option.filter] using hfit
    | false => simpa [readExponent, minus, signed, hplus, hminus, hread, Option.filter] using hfit

/-! ## How many digits were written -/

theorem lt_of_readDigits (h : readDigits 10 acc cs = some n) :
    n < (acc + 1) * 10 ^ cs.countP Char.isDigit := by
  induction cs generalizing acc with
  | nil =>
    cases h
    simp
  | cons c cs ih =>
    rw [readDigits] at h
    split at h
    · rename_i hc
      subst hc
      exact ih h
    · split at h
      · cases h
      · rename_i d hd
        split at h
        · rename_i hlt
          rw [List.countP_cons_of_pos (Text.isDigit_of_hexValue hd hlt), Nat.pow_succ]
          rw [Nat.mul_comm (10 ^ _), ← Nat.mul_assoc]
          exact Nat.lt_of_lt_of_le (ih h) (Nat.mul_le_mul_right _ (by omega))
        · cases h

/-- Digits are no fewer than the number has, and at least one. -/
theorem readBody_figures (h : readBody 10 cs = some n) :
    0 < cs.countP Char.isDigit ∧ n < 10 ^ cs.countP Char.isDigit := by
  rw [readBody] at h
  split at h
  · cases h
  · rename_i hbody
    have hlt := lt_of_readDigits h
    rw [Nat.zero_add, Nat.one_mul] at hlt
    refine ⟨?_, hlt⟩
    cases cs with
    | nil => simp at hbody
    | cons c r =>
      have hunderscore : c ≠ '_' := by simpa using hbody
      rw [readDigits, if_neg hunderscore] at h
      split at h
      · cases h
      · rename_i d hd
        split at h
        · rename_i hten
          rw [List.countP_cons_of_pos (Text.isDigit_of_hexValue hd hten)]
          omega
        · cases h

theorem readNatural_figures (h : readNatural 10 cs = some n) :
    0 < cs.countP Char.isDigit ∧ n < 10 ^ cs.countP Char.isDigit := by
  unfold readNatural at h
  split at h
  · rw [List.countP_cons_of_neg (by decide)]
    exact readBody_figures h
  · exact readBody_figures h

theorem readInteger_figures {i : Int} (h : readInteger 10 cs = some i) :
    0 < cs.countP Char.isDigit ∧ i.natAbs < 10 ^ cs.countP Char.isDigit := by
  unfold readInteger at h
  split at h
  · cases h
  · obtain ⟨j, hj, rfl⟩ := Option.map_eq_some_iff.mp h
    obtain ⟨n, hn, hj⟩ := Option.bind_eq_some_iff.mp hj
    cases hj
    rw [Int.natAbs_neg, List.countP_cons_of_neg (by decide)]
    exact readNatural_figures hn
  · obtain ⟨n, hn, rfl⟩ := Option.map_eq_some_iff.mp h
    exact readNatural_figures hn

/-! ## Figures of a literal -/

/-- The exponent after the mark; without a mark it is 0. -/
def exponent? : List Char → Option Int
  | [] => some 0
  | _ :: r => readExponent r

theorem readDecimalText_eq_some_iff {v : Decimal} :
    readDecimalText cs = some v ↔
      ∃ x i, exponent? (cs.dropWhile (!isExponentMark ·)) = some x ∧
        readInteger 10 (splitPoint (cs.takeWhile (!isExponentMark ·))).1 = some i ∧
        fitsSigned 64 ((splitPoint (cs.takeWhile (!isExponentMark ·))).2 - x) = true ∧
        v = ⟨i, (splitPoint (cs.takeWhile (!isExponentMark ·))).2 - x⟩ := by
  have heq : readDecimalText cs = (exponent? (cs.dropWhile (!isExponentMark ·))).bind fun x =>
      (readInteger 10 (splitPoint (cs.takeWhile (!isExponentMark ·))).1).bind fun i =>
        if fitsSigned 64 ((splitPoint (cs.takeWhile (!isExponentMark ·))).2 - x) then
          some ⟨i, (splitPoint (cs.takeWhile (!isExponentMark ·))).2 - x⟩
        else none := by
    rw [readDecimalText]
    cases cs.dropWhile (!isExponentMark ·) <;> rfl
  rw [heq]
  simp only [Option.bind_eq_some_iff]
  constructor
  · rintro ⟨x, hx, i, hi, hv⟩
    split at hv
    · cases hv
      exact ⟨x, i, hx, hi, ‹_›, rfl⟩
    · cases hv
  · rintro ⟨x, i, hx, hi, hfit, rfl⟩
    exact ⟨x, hx, i, hi, if_pos hfit⟩

/-- The point is no digit. -/
theorem countP_isDigit_splitPoint (base : List Char) :
    (splitPoint base).1.countP Char.isDigit = base.countP Char.isDigit := by
  have hpoint : ((base.dropWhile (· != '.')).drop 1).countP Char.isDigit =
      (base.dropWhile (· != '.')).countP Char.isDigit := by
    cases hrest : base.dropWhile (· != '.') with
    | nil => rfl
    | cons c r =>
      have hc : c = '.' := by
        have hhead := List.head_dropWhile_not (· != '.') (l := base) (by simp [hrest])
        simpa [hrest] using hhead
      subst hc
      rw [List.countP_cons_of_neg (by decide)]
      rfl
  calc (splitPoint base).1.countP Char.isDigit
      = (base.takeWhile (· != '.') ++ base.dropWhile (· != '.')).countP Char.isDigit := by
        rw [splitPoint, List.countP_append, List.countP_append, hpoint]
    _ = base.countP Char.isDigit := by rw [List.takeWhile_append_dropWhile]

theorem readPlainDigits_eq_some {n : Nat} (h : readPlainDigits cs = some n) :
    cs ≠ [] ∧ cs.all Char.isDigit = true := by
  rw [readPlainDigits] at h
  split at h
  · rename_i hall
    refine ⟨?_, hall⟩
    rintro rfl
    cases h
  · cases h

/-- What is read as an exponent is digits, once the sign before them is gone. -/
theorem readExponent_eq_some {x : Int} (h : readExponent cs = some x) :
    cs.dropWhile (fun c => c == '+' || c == '-') ≠ [] ∧
      (cs.dropWhile (fun c => c == '+' || c == '-')).all Char.isDigit = true := by
  have hdigits {ds : List Char} {n : Nat} (hds : readPlainDigits ds = some n) :
      ds.dropWhile (fun c => c == '+' || c == '-') = ds := by
    obtain ⟨hne, hall⟩ := readPlainDigits_eq_some hds
    cases ds with
    | nil => exact absurd rfl hne
    | cons c r =>
      have hc : c.isDigit = true := (List.all_eq_true.mp hall) c (.head _)
      have hplus : c ≠ '+' := Text.ne_of_isDigit hc rfl
      have hminus : c ≠ '-' := Text.ne_of_isDigit hc rfl
      exact List.dropWhile_cons_of_neg (by simp [hplus, hminus])
  have hsign {c : Char} {ds : List Char} {n : Nat} (hc : c = '+' ∨ c = '-')
      (hds : readPlainDigits ds = some n) :
      (c :: ds).dropWhile (fun c => c == '+' || c == '-') = ds := by
    rw [List.dropWhile_cons_of_pos (by simpa using hc), hdigits hds]
  unfold readExponent at h
  obtain ⟨hn, -⟩ := Option.filter_eq_some_iff.mp h
  split at hn
  · obtain ⟨j, hj, -⟩ := Option.map_eq_some_iff.mp hn
    obtain ⟨n, hn, -⟩ := Option.bind_eq_some_iff.mp hj
    rw [hsign (.inr rfl) hn]
    exact readPlainDigits_eq_some hn
  · obtain ⟨n, hn, -⟩ := Option.map_eq_some_iff.mp hn
    rw [hsign (.inl rfl) hn]
    exact readPlainDigits_eq_some hn
  · obtain ⟨n, hn, -⟩ := Option.map_eq_some_iff.mp hn
    rw [hdigits hn]
    exact readPlainDigits_eq_some hn

/-- An exponent that is read is seen as one when figures are counted. -/
theorem beforeExponent_eq {v : Decimal} (h : readDecimalText cs = some v) :
    beforeExponent cs = cs.takeWhile (!isExponentMark ·) := by
  obtain ⟨x, -, hx, -⟩ := readDecimalText_eq_some_iff.mp h
  cases hmark : cs.dropWhile (!isExponentMark ·) with
  | nil =>
    have hbase : cs.takeWhile (!isExponentMark ·) ++ [] = cs := by
      rw [← hmark, List.takeWhile_append_dropWhile]
    rw [List.append_nil] at hbase
    rw [beforeExponent, hmark, hbase]
    rfl
  | cons c r =>
    rw [hmark] at hx
    obtain ⟨hne, hall⟩ := readExponent_eq_some hx
    have hexponent : (!(r.dropWhile (fun c => c == '+' || c == '-')).isEmpty &&
        (r.dropWhile (fun c => c == '+' || c == '-')).all Char.isDigit) = true := by
      rw [hall, Bool.and_true, Bool.not_eq_true', List.isEmpty_eq_false_iff]
      exact hne
    rw [beforeExponent, hmark]
    exact if_pos hexponent

theorem readTrimmedDecimal_eq_ok {v : Decimal} (h : readTrimmedDecimal cs = .ok v) :
    readDecimalText cs = some v ∧ v.scale.natAbs ≤ maxExponent := by
  rw [readTrimmedDecimal] at h
  split at h
  · cases h
  · split at h
    · cases h
    · split at h
      · cases h
      · rename_i hread hscale
        cases h
        exact ⟨hread, Nat.not_lt.mp hscale⟩

theorem length_digits_le_figures {s : String} {v : Decimal} (h : readDecimal s = .ok v) :
    1 ≤ figures s ∧ v.digits.length ≤ figures s := by
  obtain ⟨htext, -⟩ := readTrimmedDecimal_eq_ok h
  obtain ⟨x, i, -, hi, -, rfl⟩ := readDecimalText_eq_some_iff.mp htext
  obtain ⟨hpos, hlt⟩ := readInteger_figures hi
  rw [countP_isDigit_splitPoint, ← beforeExponent_eq htext] at hpos hlt
  exact ⟨hpos, (Nat.length_toDigits_le_iff (by decide) hpos).mpr hlt⟩

end Decimal

end Scenario
