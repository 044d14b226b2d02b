import Mathlib.Data.List.TakeWhile
import Scenario.Text.Blank
import Scenario.Text.Fold
import Scenario.Text.Hex

/-!
# Characters and the ends of texts

What the classes of characters have to do with each other: the case of a letter makes no difference
to a hexadecimal digit (`isHexDigit_toLower`), the digits below ten are those of the decimal system
(`hexValue_of_isDigit`, `isDigit_of_hexValue`), and no digit is blank. A text without blanks is not
changed by trimming (`trimChars_of_not_blank`), blanks around one make no difference
(`trimChars_append`), and the mark of a hexadecimal literal is seen in either case
(`afterHexMark?_map_toLower`).
-/

namespace Scenario.Text

variable {c : Char}

/-! ## Classes of characters -/

theorem toNat_toLower (c : Char) :
    c.toLower.toNat = if 65 ≤ c.toNat ∧ c.toNat ≤ 90 then c.toNat + 32 else c.toNat := by
  have hiff : (c.val ≥ 'A'.val ∧ c.val ≤ 'Z'.val) ↔ (65 ≤ c.toNat ∧ c.toNat ≤ 90) := by
    rw [ge_iff_le, UInt32.le_iff_toNat_le, UInt32.le_iff_toNat_le]
    rfl
  split
  · rename_i h
    rw [show c.toLower = _ from dif_pos (hiff.mpr h)]
    change (c.val + 32).toNat = c.val.toNat + 32
    rw [UInt32.toNat_add]
    change (c.val.toNat + 32) % 4294967296 = c.val.toNat + 32
    have hle : c.val.toNat ≤ 90 := h.2
    omega
  · rename_i h
    rw [show c.toLower = c from dif_neg (mt hiff.mp h)]

theorem isHexDigit_iff : isHexDigit c = true ↔
    48 ≤ c.toNat ∧ c.toNat ≤ 57 ∨ 97 ≤ c.toNat ∧ c.toNat ≤ 102 ∨
      65 ≤ c.toNat ∧ c.toNat ≤ 70 := by
  have hle (a b : Char) : a ≤ b ↔ a.toNat ≤ b.toNat := UInt32.le_iff_toNat_le
  rw [isHexDigit, hexValue]
  simp only [hle, Char.reduceToNat]
  split
  · simp only [Option.isSome_some, true_iff]
    omega
  · split
    · simp only [Option.isSome_some, true_iff]
      omega
    · split
      · simp only [Option.isSome_some, true_iff]
        omega
      · simp only [Option.isSome_none, Bool.false_eq_true, false_iff]
        omega

theorem isHexDigit_toLower (c : Char) : isHexDigit c.toLower = isHexDigit c := by
  rw [Bool.eq_iff_iff, isHexDigit_iff, isHexDigit_iff, toNat_toLower]
  split <;> omega

theorem isBlank_of_isHexDigit (h : isHexDigit c = true) : isBlank c = false := by
  rw [isHexDigit_iff] at h
  simp [isBlank, blankRanges]
  omega

theorem hexValue_of_isDigit (hc : c.isDigit = true) : hexValue c = some (c.toNat - '0'.toNat) := by
  obtain ⟨hlow, hhigh⟩ := Char.isDigit_iff_toNat.mp hc
  exact if_pos ⟨UInt32.le_iff_toNat_le.mpr hlow, UInt32.le_iff_toNat_le.mpr hhigh⟩

/-- The digits below ten are those of the decimal system. -/
theorem isDigit_of_hexValue {d : Nat} (h : hexValue c = some d) (hd : d < 10) :
    c.isDigit = true := by
  rw [hexValue] at h
  split at h
  · rename_i hrange
    exact Char.isDigit_iff_toNat.mpr
      ⟨UInt32.le_iff_toNat_le.mp hrange.1, UInt32.le_iff_toNat_le.mp hrange.2⟩
  · split at h
    · cases h
      omega
    · split at h
      · cases h
        omega
      · cases h

theorem hexValue_lt {d : Nat} (h : hexValue c = some d) : d < 16 := by
  have hle (a b : Char) : a ≤ b ↔ a.toNat ≤ b.toNat := UInt32.le_iff_toNat_le
  simp only [hexValue, hle, Char.reduceToNat] at h
  split at h
  · cases h
    omega
  · split at h
    · cases h
      omega
    · split at h
      · cases h
        omega
      · cases h

theorem ne_of_isDigit (hc : c.isDigit = true) {d : Char} (hd : d.isDigit = false) : c ≠ d := by
  rintro rfl
  rw [hc] at hd
  cases hd

/-! ## The ends of texts -/

theorem trimChars_of_not_blank {cs : List Char} (h : ∀ c ∈ cs, isBlank c = false) :
    trimChars cs = cs := by
  have hdrop {ds : List Char} (hds : ∀ c ∈ ds, isBlank c = false) : ds.dropWhile isBlank = ds := by
    cases ds with
    | nil => rfl
    | cons d ds => exact List.dropWhile_cons_of_neg (by simp [hds d (.head _)])
  rw [trimChars, hdrop h, hdrop fun c hc => h c (List.mem_reverse.mp hc), List.reverse_reverse]

/-- Blanks at the ends of a text are trimmed, and nothing else changes. -/
theorem trimChars_append {l r : List Char} (hl : ∀ c ∈ l, isBlank c = true)
    (hr : ∀ c ∈ r, isBlank c = true) (cs : List Char) :
    trimChars (l ++ cs ++ r) = trimChars cs := by
  have hr' : ∀ c ∈ r.reverse, isBlank c = true := fun c hc => hr c (List.mem_reverse.mp hc)
  rw [trimChars, trimChars, List.append_assoc, List.dropWhile_append_of_pos hl,
    List.dropWhile_append]
  split
  · rename_i hempty
    rw [List.isEmpty_iff.mp hempty, List.dropWhile_eq_nil_iff.mpr hr]
  · rw [List.reverse_append, List.dropWhile_append_of_pos hr']

theorem length_trimChars_le (cs : List Char) : (trimChars cs).length ≤ cs.length := by
  rw [trimChars, List.length_reverse]
  refine Nat.le_trans (List.length_dropWhile_le _ _) ?_
  rw [List.length_reverse]
  exact List.length_dropWhile_le _ _

theorem afterHexMark?_eq_some_iff {cs r : List Char} :
    afterHexMark? cs = some r ↔ cs = '0' :: 'x' :: r ∨ cs = '0' :: 'X' :: r := by
  constructor
  · intro h
    unfold afterHexMark? at h
    split at h
    · cases h
      exact .inl rfl
    · cases h
      exact .inr rfl
    · cases h
  · rintro (rfl | rfl) <;> rfl

theorem afterHexMark?_cons_cons (c d : Char) (r : List Char) :
    afterHexMark? (c :: d :: r) = if c = '0' ∧ (d = 'x' ∨ d = 'X') then some r else none := by
  unfold afterHexMark?
  split <;> simp_all

/-- The mark is seen in either case. -/
theorem afterHexMark?_map_toLower (cs : List Char) :
    afterHexMark? (cs.map Char.toLower) = (afterHexMark? cs).map (List.map Char.toLower) := by
  match cs with
  | [] => rfl
  | [c] => simp [afterHexMark?]
  | c :: d :: r =>
    have hzero : c.toLower = '0' ↔ c = '0' := by
      simp only [← Char.toNat_inj, toNat_toLower, Char.reduceToNat]
      split <;> omega
    have hmark : (d.toLower = 'x' ∨ d.toLower = 'X') ↔ (d = 'x' ∨ d = 'X') := by
      simp only [← Char.toNat_inj, toNat_toLower, Char.reduceToNat]
      split <;> omega
    rw [List.map_cons, List.map_cons, afterHexMark?_cons_cons, afterHexMark?_cons_cons]
    simp only [hzero, hmark]
    split <;> rfl

end Scenario.Text
