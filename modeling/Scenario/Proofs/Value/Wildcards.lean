import Scenario.Proofs.Value.Agreement

/-!
# Wildcards loosen an assertion

`loosened` puts wildcards in the place of any parts of a value, at any depth. Whatever agreed with
the value agrees with what is left of it (`agrees_loosened`): a wildcard agrees with all that its
part agreed with, and the rest of the value is compared as before (`AgreeBy.loosened`).
-/

namespace Scenario.Value

mutual

/-- The value with a wildcard for each part that stands in one of `places`. The place of a part is
the way down to it, as its number among the parts at each level (`children`); the value itself
stands in the place `[]`. -/
def loosened (places : List Nat → Bool) : Value → Value
  | list items =>
    if places [] then anything else list (loosenedItems places 0 items)
  | map entries =>
    if places [] then anything else map (loosenedEntries places 0 entries)
  | v => if places [] then anything else v

/-- A row of values with their wildcards, where the first has the number `i`. -/
def loosenedItems (places : List Nat → Bool) (i : Nat) : List Value → List Value
  | [] => []
  | x :: xs =>
    loosened (fun place => places (i :: place)) x :: loosenedItems places (i + 1) xs

/-- A row of entries with their wildcards, where the first has the number `i`; keys are kept. -/
def loosenedEntries (places : List Nat → Bool) (i : Nat) :
    List (String × Value) → List (String × Value)
  | [] => []
  | (k, x) :: xs =>
    (k, loosened (fun place => places (i :: place)) x) :: loosenedEntries places (i + 1) xs

end

variable {a b : Value} {places : List Nat → Bool}

theorem loosened_of_root (h : places [] = true) : b.loosened places = anything := by
  cases b <;> simp [loosened, h]

theorem loosened_list (h : places [] = false) (xs : List Value) :
    (list xs).loosened places = list (loosenedItems places 0 xs) := by
  rw [loosened, if_neg (by simp [h])]

theorem loosened_map (h : places [] = false) (xs : Entries Value) :
    (map xs).loosened places = map (loosenedEntries places 0 xs) := by
  rw [loosened, if_neg (by simp [h])]

/-- A value without parts has no other place than its own. -/
theorem loosened_of_children (h : places [] = false) (hb : b.children = []) :
    b.loosened places = b := by
  cases b with
  | list xs =>
    obtain rfl : xs = [] := hb
    rw [loosened_list h, loosenedItems]
  | map xs =>
    obtain rfl : xs = [] := List.map_eq_nil_iff.mp hb
    rw [loosened_map h, loosenedEntries]
  | _ => simp [loosened, h]

theorem children_of_number? {v : Decimal} (h : b.number? = some v) : b.children = [] := by
  rcases number?_eq_some_iff.mp h with rfl | rfl | rfl <;> rfl

/-! ## One level of wildcards -/

variable {R S : Value → Value → Prop}

theorem forall₂_loosenedItems {xs ys : List Value} (h : List.Forall₂ R xs ys)
    (hRS : ∀ x, ∀ y ∈ ys, R x y → ∀ places, S x (y.loosened places)) (i : Nat) :
    List.Forall₂ S xs (loosenedItems places i ys) := by
  induction h generalizing i with
  | nil =>
    rw [loosenedItems]
    exact .nil
  | cons hxy _ ih =>
    rw [loosenedItems]
    exact .cons (hRS _ _ (.head _) hxy _) (ih (fun x y hy => hRS x y (.tail _ hy)) (i + 1))

theorem forall₂_loosenedEntries {xs ys : Entries Value}
    (h : List.Forall₂ (fun x y => x.1 = y.1 ∧ R x.2 y.2) xs ys)
    (hRS : ∀ x, ∀ y ∈ ys.map Prod.snd, R x y → ∀ places, S x (y.loosened places)) (i : Nat) :
    List.Forall₂ (fun x y => x.1 = y.1 ∧ S x.2 y.2) xs (loosenedEntries places i ys) := by
  induction h generalizing i with
  | nil =>
    rw [loosenedEntries]
    exact .nil
  | cons hxy _ ih =>
    rw [loosenedEntries]
    exact .cons ⟨hxy.1, hRS _ _ (.head _) hxy.2 _⟩
      (ih (fun x y hy => hRS x y (.tail _ hy)) (i + 1))

/-- A value that is no wildcard itself still agrees in the way it did, if its parts do. -/
theorem AgreeBy.loosened (h : AgreeBy R a b) (hroot : places [] = false)
    (hRS : ∀ x, ∀ y ∈ b.children, R x y → ∀ places, S x (y.loosened places)) :
    AgreeBy S a (b.loosened places) := by
  cases h with
  | anythingLeft => exact .anythingLeft _
  | anythingRight =>
    rw [loosened_of_children hroot rfl]
    exact .anythingRight _
  | precise h =>
    rw [loosened_of_children hroot rfl]
    exact .precise h
  | preciseLeft hb h =>
    rw [loosened_of_children hroot (children_of_number? hb)]
    exact .preciseLeft hb h
  | preciseRight ha h =>
    rw [loosened_of_children hroot rfl]
    exact .preciseRight ha h
  | number ha hb h =>
    rw [loosened_of_children hroot (children_of_number? hb)]
    exact .number ha hb h
  | bool x =>
    rw [loosened_of_children hroot rfl]
    exact .bool x
  | text s =>
    rw [loosened_of_children hroot rfl]
    exact .text s
  | address h =>
    rw [loosened_of_children hroot rfl]
    exact .address h
  | event e =>
    rw [loosened_of_children hroot rfl]
    exact .event e
  | list h =>
    rw [loosened_list hroot]
    exact .list (forall₂_loosenedItems h hRS 0)
  | map h =>
    rw [loosened_map hroot]
    exact .map (forall₂_loosenedEntries h hRS 0)

/-- Putting wildcards in the place of any parts of a value, or of the value itself, keeps every
agreement with it. -/
theorem agrees_loosened (a b : Value) (places : List Nat → Bool) (h : a.agrees b = true) :
    a.agrees (b.loosened places) = true := by
  -- A part has the places that are left below it, so these are not fixed in the induction.
  induction b using induction_children generalizing a places with
  | h b ih =>
    rw [agrees_iff]
    cases hroot : places [] with
    | true =>
      rw [loosened_of_root hroot]
      exact .anythingRight a
    | false =>
      refine (agrees_iff.mp h).loosened hroot fun x y hy hxy places' => ?_
      exact ih y hy x places' hxy

/-- A number within a map that agrees to its few figures, and a list within that map that is no
longer looked at. -/
theorem agrees_loosened_map :
    let a : Value := .map [("a", .list [.anything, .precise ⟨51, 1⟩ 2]), ("b", .list [.nothing])]
    let b : Value := .map [("a", .list [.text "x", .number ⟨5104, 3⟩]), ("b", .list [.anything])]
    let places : List Nat → Bool := fun place => place == [0, 0] || place == [1]
    a.agrees b = true ∧ a.agrees (b.loosened places) = true ∧ b.loosened places =
      .map [("a", .list [.anything, .number ⟨5104, 3⟩]), ("b", .anything)] := by
  intro a b places
  have hagree : a.agrees b = true := by decide
  exact ⟨hagree, agrees_loosened a b places hagree, rfl⟩

end Scenario.Value
