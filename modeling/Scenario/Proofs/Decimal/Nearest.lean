import Mathlib.Tactic.FieldSimp
import Scenario.Proofs.Decimal.Rounding

/-!
# Correct rounding

To round a number to a set of numbers is to take the nearest of them, and of two that are equally
near the one further from zero: `Rounds`. With zero in the set that determines the result
(`Rounds.unique`), and what one expects of rounding follows: a number of the set stays
(`Rounds.refl`), the sign does not matter (`Rounds.neg`) and order is kept (`Rounds.mono`).

Rounding to whole numbers is correct in this sense (`rounds_roundAway`), and so is rounding to
decimal places, which are whole numbers in a smaller unit (`rounds_roundPlaces`): so decimals are
rounded to a scale, and to whole numbers at scale 0 (`rounds_roundTo`, `rounds_roundWhole`). For
significant figures the unit goes by the order of magnitude of the number. Numbers of a lower order
may have figures below that unit, but are further away than the least number of its own order
(`rounds_roundSignificant`).
-/

namespace Scenario.Decimal

/-- `r` is the number of `S` that is nearest to `q`, and of two such the one further from zero. -/
structure Rounds (S : Set ℚ) (q r : ℚ) : Prop where
  mem : r ∈ S
  nearest : ∀ x ∈ S, |q - r| ≤ |q - x|
  away : ∀ x ∈ S, |q - x| = |q - r| → |x| ≤ |r|

/-- Of two numbers, the larger one is as near as the other from the middle between them upwards. -/
theorem abs_sub_le_abs_sub_iff {q a b : ℚ} (h : a < b) : |q - b| ≤ |q - a| ↔ a + b ≤ 2 * q := by
  have hdiff : (q - a) ^ 2 - (q - b) ^ 2 = (b - a) * (2 * q - (a + b)) := by ring
  rw [← sq_le_sq, ← sub_nonneg, hdiff, mul_nonneg_iff_of_pos_left (sub_pos.mpr h), sub_nonneg]

namespace Rounds

variable {S : Set ℚ} {q q' r r' : ℚ}

theorem refl (h : q ∈ S) : Rounds S q q where
  mem := h
  nearest x _ := by
    rw [sub_self, abs_zero]
    exact abs_nonneg _
  away x _ htie := by
    rw [sub_self, abs_zero, abs_eq_zero, sub_eq_zero] at htie
    rw [htie]

theorem neg (hS : ∀ x ∈ S, -x ∈ S) (h : Rounds S q r) : Rounds S (-q) (-r) := by
  have hdist (x : ℚ) : |-q - x| = |q - -x| := by
    rw [← abs_neg, neg_sub', neg_neg, sub_eq_add_neg]
  refine ⟨hS r h.mem, fun x hx => ?_, fun x hx htie => ?_⟩
  · rw [hdist, hdist, neg_neg]
    exact h.nearest _ (hS x hx)
  · rw [hdist, hdist, neg_neg] at htie
    rw [abs_neg, ← abs_neg x]
    exact h.away _ (hS x hx) htie

/-- In another unit, rounding is the same. -/
theorem mul_unit {u : ℚ} (hu : 0 < u) (h : Rounds S q r) :
    Rounds {x | ∃ y ∈ S, y * u = x} (q * u) (r * u) := by
  have hdist (x : ℚ) : |q * u - x * u| = |q - x| * u := by
    rw [← sub_mul, abs_mul, abs_of_pos hu]
  refine ⟨⟨r, h.mem, rfl⟩, ?_, ?_⟩
  · rintro _ ⟨x, hx, rfl⟩
    rw [hdist, hdist]
    exact mul_le_mul_of_nonneg_right (h.nearest x hx) hu.le
  · rintro _ ⟨x, hx, rfl⟩ htie
    rw [hdist, hdist] at htie
    rw [abs_mul, abs_mul]
    exact mul_le_mul_of_nonneg_right (h.away x hx (mul_right_cancel₀ hu.ne' htie)) (abs_nonneg u)

/-- There is one result at most. -/
theorem unique (h0 : (0 : ℚ) ∈ S) (h : Rounds S q r) (h' : Rounds S q r') : r = r' := by
  have hdist : |q - r| = |q - r'| := le_antisymm (h.nearest r' h'.mem) (h'.nearest r h.mem)
  have habs : |r| = |r'| := le_antisymm (h'.away r h.mem hdist) (h.away r' h'.mem hdist.symm)
  -- Two opposite numbers are equally near to zero only, and zero is nearer to itself.
  rcases abs_eq_abs.mp habs with heq | hneg
  · exact heq
  · rcases abs_eq_abs.mp hdist with hsub | hsub
    · linarith
    · obtain rfl : q = 0 := by linarith
      have hzero : |r| ≤ 0 := by
        have hnear := h.nearest 0 h0
        rwa [sub_self, abs_zero, zero_sub, abs_neg] at hnear
      have hr : r = 0 := abs_nonpos_iff.mp hzero
      linarith

theorem mono (h0 : (0 : ℚ) ∈ S) (h : Rounds S q r) (h' : Rounds S q' r') (hle : q ≤ q') :
    r ≤ r' := by
  rcases hle.lt_or_eq with hlt | rfl
  · -- Otherwise the smaller number would be above the middle of the results, the larger below.
    by_contra hcross
    have hcross : r' < r := not_le.mp hcross
    have habove : r' + r ≤ 2 * q := (abs_sub_le_abs_sub_iff hcross).mp (h.nearest r' h'.mem)
    have hbelow : ¬r' + r < 2 * q' := by
      intro hmid
      have hnear := (abs_sub_le_abs_sub_iff hcross).mpr hmid.le
      have htie : |q' - r'| = |q' - r| := le_antisymm (h'.nearest r h.mem) hnear
      rcases abs_eq_abs.mp htie with hsub | hsub <;> linarith
    linarith
  · exact (h.unique h0 h').le

end Rounds

/-! ## Whole numbers and decimal places -/

theorem roundAway_of_nonneg {q : ℚ} (hq : 0 ≤ q) : roundAway q = ⌊q + 1 / 2⌋ :=
  if_neg (not_lt.mpr hq)

theorem roundAway_neg (q : ℚ) : roundAway (-q) = -roundAway q := by
  rcases lt_trichotomy q 0 with hq | rfl | hq
  · rw [roundAway_of_nonneg (by linarith), roundAway, if_pos hq, neg_neg]
  · have hzero := roundAway_intCast 0
    rw [Int.cast_zero] at hzero
    rw [neg_zero, hzero, neg_zero]
  · rw [roundAway_of_nonneg hq.le, roundAway, if_pos (by linarith), neg_neg]

theorem rounds_roundAway_of_nonneg {q : ℚ} (hq : 0 ≤ q) :
    Rounds (Set.range ((↑) : ℤ → ℚ)) q (roundAway q) := by
  rw [roundAway_of_nonneg hq]
  have hle : (⌊q + 1 / 2⌋ : ℚ) ≤ q + 1 / 2 := Int.floor_le _
  have hlt : q + 1 / 2 < ⌊q + 1 / 2⌋ + 1 := Int.lt_floor_add_one _
  generalize ⌊q + 1 / 2⌋ = n at hle hlt ⊢
  have hbelow {z : ℤ} (hz : z < n) : |q - n| ≤ |q - z| := by
    have hstep : (z : ℚ) + 1 ≤ n := by exact_mod_cast hz
    exact (abs_sub_le_abs_sub_iff (by linarith)).mpr (by linarith)
  have habove {z : ℤ} (hz : n < z) : |q - n| < |q - z| := by
    have hstep : (n : ℚ) + 1 ≤ z := by exact_mod_cast hz
    rw [← not_le, abs_sub_le_abs_sub_iff (by linarith)]
    linarith
  refine ⟨⟨n, rfl⟩, ?_, ?_⟩
  · rintro _ ⟨z, rfl⟩
    rcases lt_trichotomy z n with hz | rfl | hz
    · exact hbelow hz
    · exact le_rfl
    · exact (habove hz).le
  · rintro _ ⟨z, rfl⟩ htie
    have hz : z ≤ n := not_lt.mp fun hz => (habove hz).ne htie.symm
    have hzn : (z : ℚ) ≤ n := by exact_mod_cast hz
    -- The two are the same, or their middle is the number itself, which is not below zero.
    rcases abs_eq_abs.mp htie with hsub | hsub
    · rw [show (z : ℚ) = n by linarith]
    · exact abs_le_abs hzn (by linarith)

/-- A whole number nearest to a number, a tie going away from zero. -/
theorem rounds_roundAway (q : ℚ) : Rounds (Set.range ((↑) : ℤ → ℚ)) q (roundAway q) := by
  rcases le_total 0 q with hq | hq
  · exact rounds_roundAway_of_nonneg hq
  · have hneg := (rounds_roundAway_of_nonneg (q := -q) (by linarith)).neg fun x hx => by
      obtain ⟨z, rfl⟩ := hx
      exact ⟨-z, Int.cast_neg z⟩
    rwa [roundAway_neg, Int.cast_neg, neg_neg, neg_neg] at hneg

/-- The numbers of so many decimal places. -/
def withPlaces (s : ℤ) : Set ℚ :=
  {x | ∃ z : ℤ, z * 10 ^ (-s) = x}

theorem rounds_roundPlaces (q : ℚ) (s : ℤ) : Rounds (withPlaces s) q (roundPlaces q s) := by
  have hunit : (0 : ℚ) < 10 ^ (-s) := by positivity
  have hq : q * 10 ^ s * 10 ^ (-s) = q := by
    rw [mul_assoc, ← zpow_add₀ (by norm_num), add_neg_cancel, zpow_zero, mul_one]
  have h := (rounds_roundAway (q * 10 ^ s)).mul_unit hunit
  rw [hq] at h
  have hS : {x | ∃ y ∈ Set.range ((↑) : ℤ → ℚ), y * 10 ^ (-s) = x} = withPlaces s := by
    simp [withPlaces]
  rwa [hS] at h

theorem rounds_roundTo (v : Decimal) (s : ℤ) :
    Rounds (withPlaces s) v.toRat (v.roundTo s).toRat := by
  rw [toRat_roundTo]
  exact rounds_roundPlaces v.toRat s

theorem rounds_roundWhole (v : Decimal) :
    Rounds (Set.range ((↑) : ℤ → ℚ)) v.toRat v.roundWhole.toRat := by
  have hplaces : withPlaces 0 = Set.range ((↑) : ℤ → ℚ) := by
    simp [withPlaces, Set.range]
  rw [← hplaces]
  exact rounds_roundTo v 0

/-! ## Significant figures -/

/-- The numbers of so many significant figures: those of a decimal with no more digits, wherever
its point stands. -/
def withFigures (n : Nat) : Set ℚ :=
  {x | ∃ w : Decimal, w.digits.length ≤ n ∧ w.toRat = x}

theorem length_digits_le_iff {v : Decimal} {n : Nat} (hn : 0 < n) :
    v.digits.length ≤ n ↔ v.int.natAbs < 10 ^ n :=
  Nat.length_toDigits_le_iff (by decide) hn

theorem zero_mem_withFigures {n : Nat} (hn : 0 < n) : (0 : ℚ) ∈ withFigures n :=
  ⟨ofInt 0, hn, by rw [toRat_ofInt, Int.cast_zero]⟩

theorem neg_mem_withFigures {n : Nat} {x : ℚ} (hx : x ∈ withFigures n) : -x ∈ withFigures n := by
  obtain ⟨w, hw, rfl⟩ := hx
  refine ⟨w.neg, ?_, toRat_neg w⟩
  rwa [digits, neg, Int.natAbs_neg]

theorem toRat_mem_withPlaces {v : Decimal} {s : ℤ} (hs : v.scale ≤ s) : v.toRat ∈ withPlaces s :=
  ⟨v.intAt s, (toRat_eq_intAt v hs).symm⟩

theorem natAbs_roundAway_le {q : ℚ} {m : Nat} (h : |q| ≤ m) : (roundAway q).natAbs ≤ m := by
  have h0 : (0 : ℚ) ∈ Set.range ((↑) : ℤ → ℚ) := ⟨0, Int.cast_zero⟩
  have hbound (z : ℤ) : Rounds (Set.range ((↑) : ℤ → ℚ)) z z := .refl ⟨z, rfl⟩
  obtain ⟨hlow, hhigh⟩ := abs_le.mp h
  have hle : (roundAway q : ℚ) ≤ (m : ℤ) := (rounds_roundAway q).mono h0 (hbound m) (by simpa)
  have hge : ((-m : ℤ) : ℚ) ≤ roundAway q := (hbound (-m)).mono h0 (rounds_roundAway q) (by simpa)
  rw [Int.cast_le] at hle hge
  omega

/-- The least integer of more than `n` figures is a power of ten, which has one. -/
theorem mem_withFigures_of_le {n : Nat} (hn : 0 < n) {z : ℤ} (hz : z.natAbs ≤ 10 ^ n) (s : ℤ) :
    (z : ℚ) * 10 ^ (-s) ∈ withFigures n := by
  rcases hz.lt_or_eq with hlt | heq
  · exact ⟨⟨z, s⟩, (length_digits_le_iff hn).mpr hlt, rfl⟩
  · have hz0 : z ≠ 0 := by
      rintro rfl
      exact (Nat.pow_pos (n := n) (by decide : 0 < 10)).ne heq
    have hsign : (z : ℚ) = z.sign * 10 ^ n :=
      calc (z : ℚ) = ((z.sign * (10 ^ n : Nat) : ℤ) : ℚ) := by rw [← heq, Int.sign_mul_natAbs]
        _ = z.sign * 10 ^ n := by push_cast; rfl
    refine ⟨⟨z.sign, s - n⟩, (length_digits_le_iff hn).mpr ?_, ?_⟩
    · rw [Int.natAbs_sign_of_ne_zero hz0]
      exact Nat.one_lt_pow hn.ne' (by decide)
    · have hexp : -(s - n) = (n : ℤ) + -s := by ring
      rw [toRat, hexp, zpow_add₀ (by norm_num), zpow_natCast, hsign, mul_assoc]

/-! A number between `10 ^ l` and ten times as much, whose `n` figures have the unit
`10 ^ (-s)`. -/

section order

variable {q : ℚ} {n : Nat} {l s : ℤ} (hn : 0 < n) (hs : s + l + 1 = n)
include hn hs

theorem zpow_order_mem_withPlaces : (10 : ℚ) ^ l ∈ withPlaces s := by
  have hexp : l = ((n - 1 : Nat) : ℤ) + -s := by omega
  refine ⟨10 ^ (n - 1), ?_⟩
  rw [hexp, zpow_add₀ (by norm_num), zpow_natCast]
  push_cast
  rfl

theorem roundPlaces_mem_withFigures (hlt : |q| < 10 ^ (l + 1)) :
    roundPlaces q s ∈ withFigures n := by
  have hexp : (n : ℤ) = l + 1 + s := by omega
  have hunit : (0 : ℚ) < 10 ^ s := by positivity
  refine mem_withFigures_of_le hn (natAbs_roundAway_le ?_) s
  push_cast
  rw [abs_mul, abs_of_pos hunit, ← zpow_natCast, hexp, zpow_add₀ (by norm_num)]
  exact mul_le_mul_of_nonneg_right hlt.le hunit.le

/-- A number of `n` figures is a multiple of the unit or is too small. -/
theorem mem_withPlaces_or_abs_lt {x : ℚ} (hx : x ∈ withFigures n) :
    x ∈ withPlaces s ∨ |x| < 10 ^ l := by
  obtain ⟨w, hw, rfl⟩ := hx
  rcases le_or_gt w.scale s with hle | hgt
  · exact .inl (toRat_mem_withPlaces hle)
  · have hunit : (0 : ℚ) < 10 ^ (-w.scale) := by positivity
    have hdigits : (w.int.natAbs : ℚ) < 10 ^ n := by
      exact_mod_cast (length_digits_le_iff hn).mp hw
    refine .inr ?_
    calc |w.toRat| = w.int.natAbs * 10 ^ (-w.scale) := abs_toRat w
      _ < 10 ^ n * 10 ^ (-w.scale) := mul_lt_mul_of_pos_right hdigits hunit
      _ = 10 ^ ((n : ℤ) + -w.scale) := by rw [zpow_add₀ (by norm_num), zpow_natCast]
      _ ≤ 10 ^ l := zpow_le_zpow_right₀ (by norm_num) (by omega)

/-- The least number of its order that has the sign of a number. -/
theorem exists_order_mem_withPlaces (hle : 10 ^ l ≤ |q|) :
    ∃ y ∈ withPlaces s, |q - y| = |q| - 10 ^ l := by
  obtain ⟨z, hz⟩ := zpow_order_mem_withPlaces hn hs
  rcases abs_cases q with ⟨habs, -⟩ | ⟨habs, -⟩
  · refine ⟨10 ^ l, ⟨z, hz⟩, ?_⟩
    rw [habs] at hle ⊢
    exact abs_of_nonneg (by linarith)
  · refine ⟨-10 ^ l, ⟨-z, ?_⟩, ?_⟩
    · rw [Int.cast_neg, neg_mul, hz]
    · rw [habs] at hle ⊢
      rw [abs_of_nonpos (by linarith)]
      ring

theorem rounds_of_order (hle : 10 ^ l ≤ |q|) (hlt : |q| < 10 ^ (l + 1)) :
    Rounds (withFigures n) q (roundPlaces q s) := by
  have hplaces := rounds_roundPlaces q s
  obtain ⟨y, hy, hdist⟩ := exists_order_mem_withPlaces hn hs hle
  have hsmall {x : ℚ} (hx : |x| < 10 ^ l) : |q - roundPlaces q s| < |q - x| :=
    calc |q - roundPlaces q s| ≤ |q - y| := hplaces.nearest y hy
      _ = |q| - 10 ^ l := hdist
      _ < |q| - |x| := by linarith
      _ ≤ |q - x| := abs_sub_abs_le_abs_sub q x
  refine ⟨roundPlaces_mem_withFigures hn hs hlt, fun x hx => ?_, fun x hx htie => ?_⟩
  · rcases mem_withPlaces_or_abs_lt hn hs hx with hmem | hx
    · exact hplaces.nearest x hmem
    · exact (hsmall hx).le
  · rcases mem_withPlaces_or_abs_lt hn hs hx with hmem | hx
    · exact hplaces.away x hmem htie
    · exact absurd htie (hsmall hx).ne'

end order

theorem rounds_roundSignificant (q : ℚ) {n : Nat} (hn : 0 < n) :
    Rounds (withFigures n) q (roundSignificant q n) := by
  by_cases hq : q = 0
  · rw [roundSignificant, if_pos (.inl hq), hq]
    exact .refl (zero_mem_withFigures hn)
  · have hpos : 0 < |q| := abs_pos.mpr hq
    rw [roundSignificant, if_neg (not_or.mpr ⟨hq, hn.ne'⟩)]
    exact rounds_of_order hn (by ring) (Int.zpow_log_le_self (by decide) hpos)
      (Int.lt_zpow_succ_log_self (by decide) _)

/-! ## Decimals -/

/-- Rounding to significant figures gives the nearest decimal of so many figures, and of two such
the one further from zero. So it depends on the number alone and not on its form, does nothing the
second time, keeps the sign apart and keeps the order. -/
theorem rounds_roundFigures (n : Nat) (hn : 1 ≤ n) :
    (∀ v : Decimal, Rounds (withFigures n) v.toRat (v.roundFigures n).toRat) ∧
    (∀ v w : Decimal, v.same w = true → (v.roundFigures n).same (w.roundFigures n) = true) ∧
    (∀ v : Decimal, ((v.roundFigures n).roundFigures n).same (v.roundFigures n) = true) ∧
    (∀ v : Decimal, (v.neg.roundFigures n).same (v.roundFigures n).neg = true) ∧
    ∀ v w : Decimal, v.toRat ≤ w.toRat → (v.roundFigures n).toRat ≤ (w.roundFigures n).toRat := by
  have h0 := zero_mem_withFigures hn
  have hround (v : Decimal) : Rounds (withFigures n) v.toRat (v.roundFigures n).toRat := by
    rw [toRat_roundFigures]
    exact rounds_roundSignificant v.toRat hn
  refine ⟨hround, fun v w hsame => ?_, fun v => ?_, fun v => ?_, fun v w hle => ?_⟩
  · rw [same_iff_toRat_eq] at hsame ⊢
    rw [toRat_roundFigures, toRat_roundFigures, hsame]
  · exact same_iff_toRat_eq.mpr ((hround _).unique h0 (.refl (hround v).mem))
  · have hneg := (hround v).neg fun x => neg_mem_withFigures
    rw [← toRat_neg, ← toRat_neg] at hneg
    exact same_iff_toRat_eq.mpr ((hround v.neg).unique h0 hneg)
  · exact (hround v).mono h0 (hround w) hle

/-- To two figures 9.95 is as near to 10 as to 9.9, whichever way it is written, and goes up; its
negation goes down. A number below it stays below. -/
theorem rounds_roundFigures_tie :
    let v : Decimal := ⟨995, 2⟩
    1 ≤ 2 ∧ Rounds (withFigures 2) v.toRat (⟨100, 1⟩ : Decimal).toRat ∧
      v.same ⟨99500, 4⟩ = true ∧
      (v.roundFigures 2).same ((⟨99500, 4⟩ : Decimal).roundFigures 2) = true ∧
      (v.neg.roundFigures 2).same ⟨-100, 1⟩ = true ∧
      (⟨9949, 3⟩ : Decimal).toRat ≤ v.toRat ∧
      (⟨99, 1⟩ : Decimal).toRat ≤ (⟨100, 1⟩ : Decimal).toRat := by
  intro v
  have htwo : 1 ≤ 2 := by decide
  have hv : v.roundFigures 2 = ⟨100, 1⟩ := by decide
  have hw : (⟨9949, 3⟩ : Decimal).roundFigures 2 = ⟨99, 1⟩ := by decide
  have hsame : v.same ⟨99500, 4⟩ = true := by decide
  have hle : (⟨9949, 3⟩ : Decimal).toRat ≤ v.toRat := by
    norm_num [toRat, v]
  obtain ⟨hround, hform, -, hneg, hmono⟩ := rounds_roundFigures 2 htwo
  refine ⟨htwo, hv ▸ hround v, hsame, hform v _ hsame, ?_, hle, ?_⟩
  · have h := hneg v
    rwa [hv] at h
  · have h := hmono _ v hle
    rwa [hv, hw] at h

end Scenario.Decimal
