import Mathlib.Tactic.Linarith
import Scenario.Proofs.Decimal.Digits
import Scenario.Proofs.Decimal.Nearest

/-!
# Limits of scales and digits

How far the numbers of an evaluation can go. `Limits.base` has room for what is read from texts of
a given length (`readNumber_within`, `readDecimal_within`), and `Limits.grown` for whatever one
command makes of numbers within limits: their negation, their product with a power of ten
(`Within.scaledBy`) or with a unit of time (`Within.mul_ofInt`), their sum with the time
(`Within.add_ofInt`), and the rounding of these to a whole number (`Within.roundWhole`).

So `Limits.nested` has room for what comes of so many commands nested in each other. Each of them
moves the scale down by no more than the exponent of the fixed point (`Limits.nested_low`). Digits
come from sums, which bring the integer to the larger of the two scales (`Limits.nested_digits_le`).
-/

namespace Scenario

/-- How long texts may be, how far scales may go below zero, and how many digits there may be. -/
structure Limits where
  text : Nat
  low : Nat
  digits : Nat
deriving DecidableEq, Repr

namespace Limits

/-- What literals of so many characters stay within, and what the constants do. -/
def base (text : Nat) : Limits :=
  ⟨text, Decimal.maxExponent, 2 * text + 80⟩

/-- What a command stays within whose operands stay within `l`, the fixed point being at `m`. -/
def grown (m : Nat) (l : Limits) : Limits :=
  ⟨l.text, l.low + m, l.digits + l.low + 1⟩

/-- What commands stay within that are nested `k` deep. -/
def nested (text m : Nat) : Nat → Limits
  | 0 => base text
  | k + 1 => (nested text m k).grown m

/-- A bound on all scales, counts of digits, and differences of those. -/
def reach (l : Limits) : Nat :=
  2 * (Decimal.maxExponent + l.low + l.digits + l.text)

instance : LE Limits where
  le l l' := l.text ≤ l'.text ∧ l.low ≤ l'.low ∧ l.digits ≤ l'.digits

variable {l l' : Limits} {text m : Nat}

theorem le_refl (l : Limits) : l ≤ l :=
  ⟨Nat.le_refl _, Nat.le_refl _, Nat.le_refl _⟩

theorem le_trans {l'' : Limits} (h : l ≤ l') (h' : l' ≤ l'') : l ≤ l'' :=
  ⟨Nat.le_trans h.1 h'.1, Nat.le_trans h.2.1 h'.2.1, Nat.le_trans h.2.2 h'.2.2⟩

theorem le_grown (m : Nat) (l : Limits) : l ≤ l.grown m := by
  refine ⟨Nat.le_refl _, ?_, ?_⟩
  · exact Nat.le_add_right _ _
  · simp only [grown]
    omega

theorem reach_mono (h : l ≤ l') : l.reach ≤ l'.reach := by
  obtain ⟨htext, hlow, hdigits⟩ := h
  simp only [reach]
  omega

theorem nested_mono {j k : Nat} (h : j ≤ k) : nested text m j ≤ nested text m k := by
  induction h with
  | refl => exact le_refl _
  | step _ ih => exact le_trans ih (le_grown m _)

theorem base_le_nested (k : Nat) : base text ≤ nested text m k :=
  nested_mono (Nat.zero_le k)

theorem nested_text (k : Nat) : (nested text m k).text = text := by
  induction k with
  | zero => rfl
  | succ k ih => exact ih

theorem nested_low (k : Nat) : (nested text m k).low = Decimal.maxExponent + m * k := by
  induction k with
  | zero => rfl
  | succ k ih =>
    simp only [nested, grown, ih]
    ring

theorem nested_digits_le (k : Nat) :
    (nested text m k).digits ≤ 2 * text + 80 + k * (Decimal.maxExponent + m * k + 1) := by
  induction k with
  | zero => simp [nested, base]
  | succ k ih =>
    simp only [nested, grown, nested_low]
    nlinarith [Nat.zero_le (m * k), Nat.zero_le m, Nat.zero_le k]

end Limits

namespace Decimal

/-- A decimal whose scale and whose digits stay within limits. -/
structure Within (l : Limits) (n : Decimal) : Prop where
  low : -(l.low : Int) ≤ n.scale
  high : n.scale ≤ maxExponent
  digits : n.int.natAbs < 10 ^ l.digits

variable {l : Limits} {n : Decimal}

theorem natAbs_mul_power (i : Int) (k : Nat) : (i * power k).natAbs = i.natAbs * 10 ^ k := by
  rw [Int.natAbs_mul, natAbs_power]
  rfl

/-- Rounding a quotient takes it no further from zero than its numerator. -/
theorem natAbs_nearest_le (i : Int) {d : Int} (hd : 0 < d) : (nearest i d).natAbs ≤ i.natAbs := by
  have hone : (1 : ℚ) ≤ d := by exact_mod_cast hd
  rw [nearest_eq_roundAway i hd]
  refine natAbs_roundAway_le ?_
  rw [abs_div, abs_of_pos (by linarith : (0 : ℚ) < d), Nat.cast_natAbs, Int.cast_abs]
  exact div_le_self (abs_nonneg _) hone

namespace Within

theorem mono {l' : Limits} (h : n.Within l) (hl : l ≤ l') : n.Within l' where
  low := by
    have := h.low
    have := hl.2.1
    omega
  high := h.high
  digits := Nat.lt_of_lt_of_le h.digits (Nat.pow_le_pow_right (by decide) hl.2.2)

theorem neg (h : n.Within l) : n.neg.Within l where
  low := h.low
  high := h.high
  digits := by
    rw [Decimal.neg, Int.natAbs_neg]
    exact h.digits

theorem ofInt {i : Int} (h : i.natAbs < 10 ^ l.digits) : (Decimal.ofInt i).Within l where
  low := by simp [Decimal.ofInt]
  high := by simp [Decimal.ofInt]
  digits := h

theorem tenTo (l : Limits) (m : Nat) : (Decimal.tenTo m).Within (l.grown m) where
  low := by
    simp only [Decimal.tenTo, Limits.grown]
    omega
  high := by
    simp only [Decimal.tenTo]
    omega
  digits := Nat.one_lt_pow (by simp [Limits.grown]) (by decide)

theorem scaledBy (h : n.Within l) (m : Nat) : (n.scaledBy m).Within (l.grown m) where
  low := by
    have := h.low
    simp only [Decimal.scaledBy, mul, Decimal.tenTo, Limits.grown]
    omega
  high := by
    have := h.high
    simp only [Decimal.scaledBy, mul, Decimal.tenTo]
    omega
  digits := by
    simp only [Decimal.scaledBy, mul, Decimal.tenTo, Int.mul_one]
    exact (h.mono (l.le_grown m)).digits

theorem ofInt_unit {u : Nat} (hu : u < 10 ^ (l.low + 1)) (m : Nat) :
    (Decimal.ofInt u).Within (l.grown m) := by
  refine ofInt (Nat.lt_of_lt_of_le hu (Nat.pow_le_pow_right (by decide) ?_))
  simp only [Limits.grown]
  omega

theorem mul_ofInt (h : n.Within l) {u : Nat} (hu : u < 10 ^ (l.low + 1)) (m : Nat) :
    (n.mul (Decimal.ofInt u)).Within (l.grown m) where
  low := by
    have := h.low
    simp only [mul, Decimal.ofInt, Limits.grown]
    omega
  high := by
    have := h.high
    simp only [mul, Decimal.ofInt]
    omega
  digits := by
    have hprod : n.int.natAbs * u < 10 ^ l.digits * 10 ^ (l.low + 1) := Nat.mul_lt_mul'' h.digits hu
    simp only [mul, Decimal.ofInt, Int.natAbs_mul, Int.natAbs_natCast, Limits.grown]
    rwa [Nat.add_assoc, Nat.pow_add]

/-- The sum stands at the scale of the decimal, or at zero if that is larger. Either the decimal or
the whole number is brought there. -/
theorem add_ofInt (h : n.Within l) (hl : maxExponent ≤ l.low) {i : Int}
    (hi : i.natAbs < 10 ^ l.digits) (m : Nat) : (n.add (Decimal.ofInt i)).Within (l.grown m) where
  low := by
    simp only [add, Decimal.ofInt, Limits.grown]
    omega
  high := by
    have := h.high
    simp only [add, Decimal.ofInt]
    omega
  digits := by
    have hbrought {k : Nat} {j : Int} (hk : k ≤ l.low) (hj : j.natAbs < 10 ^ l.digits) :
        (j * power k).natAbs < 10 ^ (l.digits + l.low) := by
      rw [natAbs_mul_power, Nat.pow_add]
      exact Nat.mul_lt_mul_of_lt_of_le hj (Nat.pow_le_pow_right (by decide) hk)
        (Nat.pow_pos (by decide))
    have hlow := h.low
    have hhigh := h.high
    have hleft := hbrought (k := (max n.scale 0 - n.scale).toNat) (by omega) h.digits
    have hright := hbrought (k := (max n.scale 0 - 0).toNat) (by omega) hi
    have hsum := Int.natAbs_add_le (n.int * power (max n.scale 0 - n.scale).toNat)
      (i * power (max n.scale 0 - 0).toNat)
    simp only [add, Decimal.ofInt, intAt, Limits.grown, Nat.pow_succ]
    omega

theorem roundWhole (h : n.Within l) : n.roundWhole.Within l := by
  rw [Decimal.roundWhole, roundTo]
  split
  · exact h
  · exact ofInt (Nat.lt_of_le_of_lt (natAbs_nearest_le _ (power_pos _)) h.digits)

theorem length_digits_le (h : n.Within l) (hl : 0 < l.digits) : n.digits.length ≤ l.digits :=
  (length_digits_le_iff hl).mpr h.digits

end Within

/-! ## Literals -/

/-- Two decimal digits have room for one of any base that is read. -/
theorem lt_of_readDigits_length {base acc k : Nat} {cs : List Char} (hbase : base ≤ 100)
    (h : readDigits base acc cs = some k) : k < (acc + 1) * 10 ^ (2 * cs.length) := by
  induction cs generalizing acc with
  | nil =>
    cases h
    simp
  | cons c cs ih =>
    have hpow : (acc + 1) * 10 ^ (2 * (c :: cs).length) =
        (acc + 1) * 100 * 10 ^ (2 * cs.length) := by
      rw [List.length_cons, Nat.mul_succ, Nat.pow_add, Nat.mul_comm (10 ^ _), Nat.mul_assoc]
    rw [hpow]
    rw [readDigits] at h
    split at h
    · exact Nat.lt_of_lt_of_le (ih h) (Nat.mul_le_mul_right _ (by omega))
    · split at h
      · cases h
      · split at h
        · have hacc : acc * base ≤ acc * 100 := Nat.mul_le_mul_left acc hbase
          exact Nat.lt_of_lt_of_le (ih h) (Nat.mul_le_mul_right _ (by omega))
        · cases h

theorem natAbs_lt_of_readInteger {base : Nat} {cs : List Char} {i : Int} (hbase : base ≤ 100)
    (h : readInteger base cs = some i) : i.natAbs < 10 ^ (2 * cs.length) := by
  have hbody {ds : List Char} {k : Nat} (hk : readBody base ds = some k) :
      k < 10 ^ (2 * ds.length) := by
    rw [readBody] at hk
    split at hk
    · cases hk
    · simpa using lt_of_readDigits_length hbase hk
  have hlonger {ds : List Char} {k : Nat} (c : Char) (hk : k < 10 ^ (2 * ds.length)) :
      k < 10 ^ (2 * (c :: ds).length) :=
    Nat.lt_of_lt_of_le hk (Nat.pow_le_pow_right (by decide) (by simp))
  have hnatural {ds : List Char} {k : Nat} (hk : readNatural base ds = some k) :
      k < 10 ^ (2 * ds.length) := by
    unfold readNatural at hk
    split at hk
    · exact hlonger _ (hbody hk)
    · exact hbody hk
  unfold readInteger at h
  split at h
  · cases h
  · obtain ⟨j, hj, rfl⟩ := Option.map_eq_some_iff.mp h
    obtain ⟨k, hk, hj⟩ := Option.bind_eq_some_iff.mp hj
    cases hj
    rw [Int.natAbs_neg]
    exact hlonger _ (hnatural hk)
  · obtain ⟨k, hk, rfl⟩ := Option.map_eq_some_iff.mp h
    exact hnatural hk

theorem length_splitPoint_le (base : List Char) : (splitPoint base).1.length ≤ base.length := by
  have hparts : (base.takeWhile (· != '.')).length + (base.dropWhile (· != '.')).length =
      base.length := by
    rw [← List.length_append, List.takeWhile_append_dropWhile]
  simp only [splitPoint, List.length_append, List.length_drop]
  omega

theorem within_base {k text : Nat} (hscale : n.scale.natAbs ≤ maxExponent)
    (hint : n.int.natAbs < 10 ^ k) (hk : k ≤ 2 * text + 80) : n.Within (.base text) where
  low := by
    simp only [Limits.base]
    omega
  high := by omega
  digits := Nat.lt_of_lt_of_le hint (Nat.pow_le_pow_right (by decide) hk)

theorem readTrimmedDecimal_within {cs : List Char} {text : Nat}
    (h : readTrimmedDecimal cs = .ok n) (hcs : cs.length ≤ text) : n.Within (.base text) := by
  obtain ⟨hread, hscale⟩ := readTrimmedDecimal_eq_ok h
  obtain ⟨x, i, -, hi, -, rfl⟩ := readDecimalText_eq_some_iff.mp hread
  refine within_base hscale (natAbs_lt_of_readInteger (by decide) hi) ?_
  have htake := (List.takeWhile_sublist (!isExponentMark ·) (l := cs)).length_le
  have hsplit := length_splitPoint_le (cs.takeWhile (!isExponentMark ·))
  omega

/-- What a text is read as as a number. -/
theorem readNumber_within {s : String} {text : Nat} (h : readNumber s = .ok n)
    (hs : s.length ≤ text) : n.Within (.base text) := by
  have htrim : (Text.trimChars s.toList).length ≤ text :=
    Nat.le_trans (Text.length_trimChars_le _) (by rwa [String.length_toList])
  rw [readNumber, readTrimmedNumber] at h
  split at h
  · rename_i r hr
    split at h
    · rename_i i hi
      cases h
      refine within_base (Nat.zero_le _) (natAbs_lt_of_readInteger (by decide) hi) ?_
      rcases Text.afterHexMark?_eq_some_iff.mp hr with hcs | hcs
      all_goals
        rw [hcs, List.length_cons, List.length_cons] at htrim
        omega
    · cases h
  · exact readTrimmedDecimal_within h htrim

theorem readDecimal_within {s : String} {text : Nat} (h : readDecimal s = .ok n)
    (hs : s.length ≤ text) : n.Within (.base text) := by
  refine readTrimmedDecimal_within h (Nat.le_trans (Text.length_trimChars_le _) ?_)
  rwa [String.length_toList]

theorem figures_le (s : String) : figures s ≤ s.length := by
  have hbefore (cs : List Char) : (beforeExponent cs).length ≤ cs.length := by
    simp only [beforeExponent]
    split
    · exact (List.takeWhile_sublist _).length_le
    · exact Nat.le_refl _
  rw [figures, ← String.length_toList]
  exact Nat.le_trans List.countP_le_length (Nat.le_trans (hbefore _) (Text.length_trimChars_le _))

end Decimal

end Scenario
