import Scenario.Proofs.Decimal.Limits
import Scenario.Proofs.Value.Agreement

/-!
# The numbers in a value

`Value.numbers` lists the decimals in a value, whatever kind of number they stand in and however
deep. A value stays within limits (`Value.Within`) if all of these do, and its texts and counts of
figures as well, for a text can be read as a number later on.
-/

namespace Scenario.Value

/-- The decimal of a number of any kind. -/
def decimal? : Value → Option Decimal
  | precise v _ => some v
  | v => v.number?

mutual

/-- The decimals in a value. -/
def numbers : Value → List Decimal
  | list items => itemNumbers items
  | map entries => entryNumbers entries
  | v => v.decimal?.toList

/-- The decimals in a row of values. -/
def itemNumbers : List Value → List Decimal
  | [] => []
  | x :: xs => numbers x ++ itemNumbers xs

/-- The decimals in a row of entries. -/
def entryNumbers : List (String × Value) → List Decimal
  | [] => []
  | (_, x) :: xs => numbers x ++ entryNumbers xs

end

theorem itemNumbers_eq_flatMap (xs : List Value) : itemNumbers xs = xs.flatMap numbers := by
  induction xs with
  | nil => rw [itemNumbers, List.flatMap_nil]
  | cons x xs ih => rw [itemNumbers, List.flatMap_cons, ih]

theorem entryNumbers_eq_flatMap (xs : Entries Value) :
    entryNumbers xs = (xs.map Prod.snd).flatMap numbers := by
  induction xs with
  | nil => rw [entryNumbers, List.map_nil, List.flatMap_nil]
  | cons x xs ih => rw [entryNumbers, List.map_cons, List.flatMap_cons, ih]

theorem numbers_eq (a : Value) : a.numbers = a.decimal?.toList ++ a.children.flatMap numbers := by
  cases a with
  | list items => simp [numbers, itemNumbers_eq_flatMap, children, decimal?, number?]
  | map entries => simp [numbers, entryNumbers_eq_flatMap, children, decimal?, number?]
  | _ => simp [numbers, children]

/-- Whether a value stays within limits, what it holds apart. -/
def Fits (l : Limits) : Value → Prop
  | number v => v.Within l
  | scaled v => v.Within l
  | percent v => v.Within l
  | precise v n => v.Within l ∧ n ≤ l.text
  | text s => s.length ≤ l.text
  | _ => True

/-- A value that stays within limits, with all it holds. -/
inductive Within (l : Limits) : Value → Prop where
  | mk {a : Value} (fits : a.Fits l) (parts : ∀ x ∈ a.children, Within l x) : Within l a

namespace Within

variable {l : Limits} {a : Value}

theorem fits (h : a.Within l) : a.Fits l := by
  cases h with
  | mk hfits _ => exact hfits

theorem parts (h : a.Within l) : ∀ x ∈ a.children, x.Within l := by
  cases h with
  | mk _ hparts => exact hparts

theorem of_leaf (h : a.Fits l) (ha : a.children = []) : a.Within l :=
  .mk h (by simp [ha])

theorem list {xs : List Value} (h : ∀ x ∈ xs, x.Within l) : (Value.list xs).Within l :=
  .mk trivial h

theorem map {xs : Entries Value} (h : ∀ x ∈ xs, x.2.Within l) : (Value.map xs).Within l :=
  .mk trivial (List.forall_mem_map.mpr h)

theorem number? (h : a.Within l) {v : Decimal} (hv : a.number? = some v) : v.Within l := by
  rcases number?_eq_some_iff.mp hv with rfl | rfl | rfl <;> exact h.fits

theorem decimal? (h : a.Within l) {v : Decimal} (hv : a.decimal? = some v) : v.Within l := by
  cases a with
  | precise w n =>
    cases hv
    exact h.fits.1
  | _ => exact h.number? hv

theorem numbers (h : a.Within l) : ∀ v ∈ a.numbers, v.Within l := by
  induction h with
  | @mk a fits parts ih =>
    intro v hv
    rw [numbers_eq, List.mem_append, Option.mem_toList, List.mem_flatMap] at hv
    rcases hv with hv | ⟨x, hx, hv⟩
    · exact decimal? (.mk fits parts) hv
    · exact ih x hx v hv

theorem mono {l' : Limits} (h : a.Within l) (hl : l ≤ l') : a.Within l' := by
  induction h with
  | @mk a fits parts ih =>
    refine .mk ?_ ih
    cases a with
    | number v => exact Decimal.Within.mono fits hl
    | scaled v => exact Decimal.Within.mono fits hl
    | percent v => exact Decimal.Within.mono fits hl
    | precise v n => exact ⟨fits.1.mono hl, Nat.le_trans fits.2 hl.1⟩
    | text s => exact Nat.le_trans (show s.length ≤ l.text from fits) hl.1
    | _ => trivial

end Within

end Scenario.Value
