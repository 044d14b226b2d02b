import Scenario.Proofs.Decimal.Rounding
import Scenario.Proofs.Entries
import Scenario.Value.Agreement

/-!
# Ways to agree

`agrees_iff` lists the ways in which two values agree (`AgreeBy`), in terms of which of their parts
do. What holds of agreement follows from that list by induction on the parts of a value
(`induction_children`): here that agreement goes both ways (`agrees_comm`).

Maps are compared entry by entry, in key order. That is to look up each entry of one map in the
other, if both have equally many (`agrees_map_iff_get?`).
-/

namespace Scenario.Value

/-! ## The parts of a value -/

/-- The values that a list or a map holds. -/
def children : Value → List Value
  | list items => items
  | map entries => entries.map Prod.snd
  | _ => []

theorem sizeOf_lt_of_mem_children {a x : Value} (h : x ∈ a.children) : sizeOf x < sizeOf a := by
  cases a with
  | list items =>
    have hx := List.sizeOf_lt_of_mem (show x ∈ items from h)
    rw [list.sizeOf_spec]
    omega
  | map entries =>
    obtain ⟨⟨k, _⟩, hmem, rfl⟩ := List.mem_map.mp h
    have hx := List.sizeOf_lt_of_mem hmem
    rw [Prod.mk.sizeOf_spec] at hx
    rw [map.sizeOf_spec]
    dsimp only
    omega
  | _ => cases h

/-- What holds of a value if it holds of its parts holds of all values. -/
theorem induction_children {P : Value → Prop} (h : ∀ a, (∀ x ∈ a.children, P x) → P a)
    (a : Value) : P a :=
  h a fun x hx =>
    have := sizeOf_lt_of_mem_children hx
    induction_children h x
termination_by sizeOf a

mutual

/-- Whether a value of some kind occurs in a value, as the value itself or at any depth. -/
def has (k : Kind) : Value → Bool
  | list items => k == .list || itemsHave k items
  | map entries => k == .map || entriesHave k entries
  | v => k == v.kind

/-- Whether a value of some kind occurs in a row of values. -/
def itemsHave (k : Kind) : List Value → Bool
  | [] => false
  | x :: xs => has k x || itemsHave k xs

/-- Whether a value of some kind occurs in a row of entries. -/
def entriesHave (k : Kind) : List (String × Value) → Bool
  | [] => false
  | (_, x) :: xs => has k x || entriesHave k xs

end

theorem itemsHave_eq_any (k : Kind) (xs : List Value) : itemsHave k xs = xs.any (has k) := by
  induction xs with
  | nil => rw [itemsHave, List.any_nil]
  | cons x xs ih => rw [itemsHave, List.any_cons, ih]

theorem entriesHave_eq_any (k : Kind) (xs : Entries Value) :
    entriesHave k xs = (xs.map Prod.snd).any (has k) := by
  induction xs with
  | nil => rw [entriesHave, List.map_nil, List.any_nil]
  | cons x xs ih => rw [entriesHave, List.map_cons, List.any_cons, ih]

theorem has_eq (k : Kind) (a : Value) : a.has k = (k == a.kind || a.children.any (has k)) := by
  cases a with
  | list items => rw [has, itemsHave_eq_any, kind, children]
  | map entries => rw [has, entriesHave_eq_any, kind, children]
  | _ => simp [has, children]

theorem has_eq_false_iff {k : Kind} {a : Value} :
    a.has k = false ↔ k ≠ a.kind ∧ ∀ x ∈ a.children, x.has k = false := by
  rw [has_eq, Bool.or_eq_false_iff, beq_eq_false_iff_ne, List.any_eq_false]
  simp only [Bool.not_eq_true]

/-! ## One level of agreement -/

/-- The ways in which two values agree, when `R` says which of their parts do. -/
inductive AgreeBy (R : Value → Value → Prop) : Value → Value → Prop where
  | anythingLeft (b : Value) : AgreeBy R anything b
  | anythingRight (a : Value) : AgreeBy R a anything
  | precise {v w : Decimal} {n m : Nat} (h : agreesTo (min n m) v w = true) :
      AgreeBy R (precise v n) (precise w m)
  | preciseLeft {b : Value} {v w : Decimal} {n : Nat} (hb : b.number? = some w)
      (h : agreesTo n v w = true) : AgreeBy R (precise v n) b
  | preciseRight {a : Value} {v w : Decimal} {m : Nat} (ha : a.number? = some v)
      (h : agreesTo m v w = true) : AgreeBy R a (precise w m)
  | number {a b : Value} {v w : Decimal} (ha : a.number? = some v) (hb : b.number? = some w)
      (h : v.same w = true) : AgreeBy R a b
  | bool (x : Bool) : AgreeBy R (bool x) (bool x)
  | text (s : String) : AgreeBy R (text s) (text s)
  | address {s t : String} (h : Text.fold s = Text.fold t) : AgreeBy R (address s) (address t)
  | event (e : Expr) : AgreeBy R (event e) (event e)
  | list {xs ys : List Value} (h : List.Forall₂ R xs ys) : AgreeBy R (list xs) (list ys)
  | map {xs ys : Entries Value} (h : List.Forall₂ (fun x y => x.1 = y.1 ∧ R x.2 y.2) xs ys) :
      AgreeBy R (map xs) (map ys)

theorem number?_eq_some_iff {a : Value} {v : Decimal} :
    a.number? = some v ↔ a = number v ∨ a = scaled v ∨ a = percent v := by
  cases a <;> simp [number?]

theorem agreeItems_iff {xs ys : List Value} :
    agreeItems xs ys = true ↔ List.Forall₂ (fun x y => x.agrees y = true) xs ys := by
  induction xs generalizing ys with
  | nil => cases ys <;> simp [agreeItems]
  | cons x xs ih => cases ys <;> simp [agreeItems, ih]

theorem agreeEntries_iff {xs ys : Entries Value} :
    agreeEntries xs ys = true ↔
      List.Forall₂ (fun x y => x.1 = y.1 ∧ x.2.agrees y.2 = true) xs ys := by
  induction xs generalizing ys with
  | nil => cases ys <;> simp [agreeEntries]
  | cons x xs ih => cases ys <;> simp [agreeEntries, ih, and_assoc]

theorem agreesTo_comm (n : Nat) (v w : Decimal) : agreesTo n v w = agreesTo n w v :=
  Decimal.same_comm _ _

theorem agreeBy_of_agrees {a b : Value} (h : a.agrees b = true) :
    AgreeBy (fun x y => x.agrees y = true) a b := by
  rw [agrees.eq_def] at h
  split at h
  · exact .anythingLeft _
  · exact .anythingRight _
  · cases h
  · cases h
  · exact .precise h
  · obtain ⟨w, hw, h⟩ := (Option.any_eq_true _ _).mp h
    exact .preciseLeft hw h
  · obtain ⟨v, hv, h⟩ := (Option.any_eq_true _ _).mp h
    exact .preciseRight hv (agreesTo_comm _ _ _ ▸ h)
  · obtain rfl := beq_iff_eq.mp h
    exact .bool _
  · obtain rfl := beq_iff_eq.mp h
    exact .text _
  · exact .address (Text.sameFold_iff.mp h)
  · exact .list (agreeItems_iff.mp h)
  · exact .map (agreeEntries_iff.mp h)
  · obtain rfl := beq_iff_eq.mp h
    exact .event _
  · obtain ⟨v, hv, h⟩ := (Option.any_eq_true _ _).mp h
    obtain ⟨w, hw, h⟩ := (Option.any_eq_true _ _).mp h
    exact .number hv hw h

theorem agrees_of_agreeBy {a b : Value} (h : AgreeBy (fun x y => x.agrees y = true) a b) :
    a.agrees b = true := by
  cases h with
  | anythingLeft => rw [agrees]
  | anythingRight => cases a <;> rw [agrees] <;> exact nofun
  | precise h => rw [agrees, h]
  | preciseLeft hb h =>
    rcases number?_eq_some_iff.mp hb with rfl | rfl | rfl <;> simp [agrees, number?, h]
  | preciseRight ha h =>
    rw [agreesTo_comm] at h
    rcases number?_eq_some_iff.mp ha with rfl | rfl | rfl <;> simp [agrees, number?, h]
  | number ha hb h =>
    rcases number?_eq_some_iff.mp ha with rfl | rfl | rfl <;>
      rcases number?_eq_some_iff.mp hb with rfl | rfl | rfl <;> simp [agrees, number?, h]
  | bool x => simp [agrees]
  | text s => simp [agrees]
  | address h => rw [agrees, Text.sameFold_iff.mpr h]
  | event e => simp [agrees]
  | list h => rw [agrees, agreeItems_iff.mpr h]
  | map h => rw [agrees, agreeEntries_iff.mpr h]

/-- Two values agree in one of these ways, and in no other. -/
theorem agrees_iff {a b : Value} :
    a.agrees b = true ↔ AgreeBy (fun x y => x.agrees y = true) a b :=
  ⟨agreeBy_of_agrees, agrees_of_agreeBy⟩

theorem agrees_map_iff_get? {xs ys : Entries Value} (hx : xs.Ascending) (hy : ys.Ascending) :
    (map xs).agrees (map ys) = true ↔
      xs.length = ys.length ∧ ∀ x ∈ xs, ∃ w, ys.get? x.1 = some w ∧ x.2.agrees w = true := by
  rw [agrees, agreeEntries_iff]
  exact Entries.forall₂_iff_get? (R := fun x y => x.agrees y = true) hx hy

/-! ## Symmetry -/

theorem forall₂_imp_mem {α β : Type} {R S : α → β → Prop} {xs : List α} {ys : List β}
    (h : List.Forall₂ R xs ys) (hRS : ∀ x ∈ xs, ∀ y ∈ ys, R x y → S x y) :
    List.Forall₂ S xs ys := by
  induction h with
  | nil => exact .nil
  | cons hxy _ ih =>
    refine .cons (hRS _ (.head _) _ (.head _) hxy) (ih fun x hx y hy => ?_)
    exact hRS x (.tail _ hx) y (.tail _ hy)

namespace AgreeBy

variable {R S : Value → Value → Prop} {a b : Value}

theorem imp_children (h : AgreeBy R a b)
    (hRS : ∀ x ∈ a.children, ∀ y ∈ b.children, R x y → S x y) : AgreeBy S a b := by
  cases h with
  | anythingLeft => exact .anythingLeft _
  | anythingRight => exact .anythingRight _
  | precise h => exact .precise h
  | preciseLeft hb h => exact .preciseLeft hb h
  | preciseRight ha h => exact .preciseRight ha h
  | number ha hb h => exact .number ha hb h
  | bool x => exact .bool x
  | text s => exact .text s
  | address h => exact .address h
  | event e => exact .event e
  | list h => exact .list (forall₂_imp_mem h hRS)
  | map h =>
    refine .map (forall₂_imp_mem h fun x hx y hy hxy => ⟨hxy.1, ?_⟩)
    exact hRS _ (List.mem_map_of_mem hx) _ (List.mem_map_of_mem hy) hxy.2

/-- Each way to agree is one seen from the other side, too. -/
theorem flip (h : AgreeBy R a b) : AgreeBy (fun x y => R y x) b a := by
  cases h with
  | anythingLeft => exact .anythingRight _
  | anythingRight => exact .anythingLeft _
  | precise h => exact .precise (by rw [min_comm, agreesTo_comm, h])
  | preciseLeft hb h => exact .preciseRight hb (by rw [agreesTo_comm, h])
  | preciseRight ha h => exact .preciseLeft ha (by rw [agreesTo_comm, h])
  | number ha hb h => exact .number hb ha (by rw [Decimal.same_comm, h])
  | bool x => exact .bool x
  | text s => exact .text s
  | address h => exact .address h.symm
  | event e => exact .event e
  | list h => exact .list h.flip
  | map h => exact .map (h.imp fun x y hxy => ⟨hxy.1.symm, hxy.2⟩).flip

end AgreeBy

theorem agrees_symm {a b : Value} (h : a.agrees b = true) : b.agrees a = true := by
  induction a using induction_children generalizing b with
  | h a ih =>
    rw [agrees_iff] at h ⊢
    exact (h.imp_children fun x hx y _ hxy => ih x hx hxy).flip

theorem agrees_comm (a b : Value) : a.agrees b = b.agrees a :=
  Bool.eq_iff_iff.mpr ⟨agrees_symm, agrees_symm⟩

/-- Agreement goes both ways. Of two maps it is enough to look at the entries of one, as the other
has no more: each must find its like under its key. -/
theorem agrees_symmetric :
    (∀ a b : Value, a.agrees b = b.agrees a) ∧
    ∀ xs ys : Entries Value, xs.Ascending → ys.Ascending →
      ((map xs).agrees (map ys) = true ↔
        xs.length = ys.length ∧ ∀ x ∈ xs, ∃ w, ys.get? x.1 = some w ∧ x.2.agrees w = true) :=
  ⟨agrees_comm, fun _ _ hx hy => agrees_map_iff_get? hx hy⟩

/-- Two maps that agree by a wildcard and by the few figures of a number. -/
theorem agrees_symmetric_maps :
    let xs : Entries Value := [("a", .anything), ("b", .list [.precise ⟨51, 1⟩ 2])]
    let ys : Entries Value := [("a", .nothing), ("b", .list [.scaled ⟨5104, 3⟩])]
    xs.Ascending ∧ ys.Ascending ∧ (map xs).agrees (map ys) = true ∧
      (map ys).agrees (map xs) = true ∧
      ∃ w, ys.get? "b" = some w ∧ (list [.precise ⟨51, 1⟩ 2]).agrees w = true := by
  intro xs ys
  have hx : xs.Ascending := by decide
  have hy : ys.Ascending := by decide
  have hagree : (map xs).agrees (map ys) = true := by decide
  refine ⟨hx, hy, hagree, ?_, ?_⟩
  · rw [agrees_symmetric.1]
    exact hagree
  · exact ((agrees_symmetric.2 xs ys hx hy).mp hagree).2 ("b", _) (.tail _ (.head _))

end Scenario.Value
