/-!
# Letter case

Names are compared without regard to the case of the letters `A` to `Z`; no
other letter has a case here. `fold` is the lower-case form that decides such a
comparison, and folding twice is folding once (`fold_fold`).
-/

namespace Scenario.Text

/-- The text with the letters `A` to `Z` in lower case. -/
def fold (s : String) : String :=
  String.ofList (s.toList.map Char.toLower)

/-- Whether two texts agree up to the case of the letters `A` to `Z`. -/
def sameFold (s t : String) : Bool :=
  fold s == fold t

@[simp]
theorem toList_fold (s : String) : (fold s).toList = s.toList.map Char.toLower := by
  simp [fold]

theorem toLower_toLower (c : Char) : c.toLower.toLower = c.toLower := by
  by_cases h : c.val ≥ 'A'.val ∧ c.val ≤ 'Z'.val
  · have h₁ : 65 ≤ c.val.toNat := UInt32.le_iff_toNat_le.mp h.1
    have h₂ : c.val.toNat ≤ 90 := UInt32.le_iff_toNat_le.mp h.2
    have hv : c.toLower.val.toNat = c.val.toNat + 32 := by
      rw [show c.toLower = _ from dif_pos h]
      change (c.val + 32).toNat = c.val.toNat + 32
      rw [UInt32.toNat_add]
      change (c.val.toNat + 32) % 4294967296 = c.val.toNat + 32
      omega
    have hn : ¬(c.toLower.val ≥ 'A'.val ∧ c.toLower.val ≤ 'Z'.val) := by
      rintro ⟨-, h₄⟩
      have : c.toLower.val.toNat ≤ 90 := UInt32.le_iff_toNat_le.mp h₄
      omega
    exact dif_neg hn
  · rw [show c.toLower = c from dif_neg h, show c.toLower = c from dif_neg h]

@[simp]
theorem fold_fold (s : String) : fold (fold s) = fold s := by
  apply String.toList_inj.mp
  rw [toList_fold, toList_fold, List.map_map]
  exact List.map_congr_left fun c _ => toLower_toLower c

theorem sameFold_iff {s t : String} : sameFold s t = true ↔ fold s = fold t := by
  simp [sameFold]

end Scenario.Text
