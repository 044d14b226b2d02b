import Scenario.Proofs.Value.Agreement

/-!
# Equal values agree alike

Equality of values (`same`) tells kinds apart and knows no wildcards, but takes numbers in all
their forms for the same. `agrees_of_same` compares it with agreement. An equal value may stand for
a value on either side: that is plain but for numbers of limited precision, which are rounded first,
and rounding depends on the number alone (`agreesTo_congr`). And a value agrees with its equals
unless it has, somewhere, the one wildcard that agrees with nothing.
-/

namespace Scenario.Value

/-! ## One level of equality -/

/-- The ways in which two values are equal, when `R` says which of their parts are. -/
inductive SameBy (R : Value → Value → Prop) : Value → Value → Prop where
  | bool (x : Bool) : SameBy R (bool x) (bool x)
  | number {v w : Decimal} (h : v.same w = true) : SameBy R (number v) (number w)
  | scaled {v w : Decimal} (h : v.same w = true) : SameBy R (scaled v) (scaled w)
  | percent {v w : Decimal} (h : v.same w = true) : SameBy R (percent v) (percent w)
  | precise {v w : Decimal} (n : Nat) (h : v.same w = true) :
      SameBy R (precise v n) (precise w n)
  | text (s : String) : SameBy R (text s) (text s)
  | address (s : String) : SameBy R (address s) (address s)
  | list {xs ys : List Value} (h : List.Forall₂ R xs ys) : SameBy R (list xs) (list ys)
  | map {xs ys : Entries Value} (h : List.Forall₂ (fun x y => x.1 = y.1 ∧ R x.2 y.2) xs ys) :
      SameBy R (map xs) (map ys)
  | anything : SameBy R anything anything
  | nothing : SameBy R nothing nothing
  | event (e : Expr) : SameBy R (event e) (event e)

theorem sameItems_iff {xs ys : List Value} :
    sameItems xs ys = true ↔ List.Forall₂ (fun x y => x.same y = true) xs ys := by
  induction xs generalizing ys with
  | nil => cases ys <;> simp [sameItems]
  | cons x xs ih => cases ys <;> simp [sameItems, ih]

theorem sameEntries_iff {xs ys : Entries Value} :
    sameEntries xs ys = true ↔
      List.Forall₂ (fun x y => x.1 = y.1 ∧ x.2.same y.2 = true) xs ys := by
  induction xs generalizing ys with
  | nil => cases ys <;> simp [sameEntries]
  | cons x xs ih => cases ys <;> simp [sameEntries, ih, and_assoc]

theorem sameBy_of_same {a b : Value} (h : a.same b = true) :
    SameBy (fun x y => x.same y = true) a b := by
  rw [same.eq_def] at h
  split at h
  · obtain rfl := beq_iff_eq.mp h
    exact .bool _
  · exact .number h
  · exact .scaled h
  · exact .percent h
  · obtain ⟨hv, hn⟩ := Bool.and_eq_true_iff.mp h
    obtain rfl := beq_iff_eq.mp hn
    exact .precise _ hv
  · obtain rfl := beq_iff_eq.mp h
    exact .text _
  · obtain rfl := beq_iff_eq.mp h
    exact .address _
  · exact .list (sameItems_iff.mp h)
  · exact .map (sameEntries_iff.mp h)
  · exact .anything
  · exact .nothing
  · obtain rfl := beq_iff_eq.mp h
    exact .event _
  · cases h

theorem same_of_sameBy {a b : Value} (h : SameBy (fun x y => x.same y = true) a b) :
    a.same b = true := by
  cases h with
  | number h => rw [same, h]
  | scaled h => rw [same, h]
  | percent h => rw [same, h]
  | precise n h => simp [same, h]
  | list h => rw [same, sameItems_iff.mpr h]
  | map h => rw [same, sameEntries_iff.mpr h]
  | _ => simp [same]

theorem same_iff {a b : Value} : a.same b = true ↔ SameBy (fun x y => x.same y = true) a b :=
  ⟨sameBy_of_same, same_of_sameBy⟩

theorem SameBy.symm_children {R : Value → Value → Prop} {a b : Value} (h : SameBy R a b)
    (hR : ∀ x ∈ a.children, ∀ y, R x y → R y x) : SameBy R b a := by
  cases h with
  | bool x => exact .bool x
  | number h => exact .number (by rw [Decimal.same_comm, h])
  | scaled h => exact .scaled (by rw [Decimal.same_comm, h])
  | percent h => exact .percent (by rw [Decimal.same_comm, h])
  | precise n h => exact .precise n (by rw [Decimal.same_comm, h])
  | text s => exact .text s
  | address s => exact .address s
  | list h =>
    have hswap := forall₂_imp_mem (S := fun x y => R y x) h fun x hx y _ => hR x hx y
    exact .list hswap.flip
  | map h =>
    have hswap := forall₂_imp_mem (S := fun x y => y.1 = x.1 ∧ R y.2 x.2) h
      fun x hx y _ hxy => ⟨hxy.1.symm, hR x.2 (List.mem_map_of_mem hx) y.2 hxy.2⟩
    exact .map hswap.flip
  | anything => exact .anything
  | nothing => exact .nothing
  | event e => exact .event e

theorem same_symm {a b : Value} (h : a.same b = true) : b.same a = true := by
  induction a using induction_children generalizing b with
  | h a ih =>
    rw [same_iff] at h ⊢
    exact h.symm_children fun x hx y hxy => ih x hx hxy

theorem SameBy.exists_number? {R : Value → Value → Prop} {a b : Value} {v : Decimal}
    (h : SameBy R a b) (ha : a.number? = some v) : ∃ w, b.number? = some w ∧ v.same w = true := by
  rcases number?_eq_some_iff.mp ha with rfl | rfl | rfl
  · cases h with
    | number h => exact ⟨_, rfl, h⟩
  · cases h with
    | scaled h => exact ⟨_, rfl, h⟩
  · cases h with
    | percent h => exact ⟨_, rfl, h⟩

/-! ## An equal value in place of a value -/

theorem agreesTo_eq_decide (n : Nat) (v w : Decimal) :
    agreesTo n v w =
      decide (Decimal.roundSignificant v.toRat n = Decimal.roundSignificant w.toRat n) := by
  rw [agreesTo, Decimal.same_eq_decide, Decimal.toRat_roundFigures, Decimal.toRat_roundFigures]

/-- To how many figures two numbers agree does not depend on their forms. -/
theorem agreesTo_congr {v v' : Decimal} (h : v.same v' = true) (n : Nat) (w : Decimal) :
    agreesTo n v w = agreesTo n v' w := by
  rw [agreesTo_eq_decide, agreesTo_eq_decide, Decimal.same_iff_toRat_eq.mp h]

theorem agreesTo_of_same {v w : Decimal} (h : v.same w = true) (n : Nat) :
    agreesTo n v w = true := by
  rw [agreesTo_eq_decide, Decimal.same_iff_toRat_eq.mp h, decide_eq_true_eq]

theorem forall₂_transfer {α β γ : Type} {P : α → β → Prop} {Q : α → γ → Prop} {S : β → γ → Prop}
    {xs : List α} {ys : List β} {zs : List γ} (hP : List.Forall₂ P xs ys)
    (hQ : List.Forall₂ Q xs zs) (h : ∀ x ∈ xs, ∀ y z, P x y → Q x z → S y z) :
    List.Forall₂ S ys zs := by
  induction hP generalizing zs with
  | nil =>
    cases hQ
    exact .nil
  | cons hxy _ ih =>
    cases hQ with
    | cons hxz hQ => exact .cons (h _ (.head _) _ _ hxy hxz) (ih hQ fun x hx => h x (.tail _ hx))

theorem agrees_of_same_left {a a' b : Value} (hs : a.same a' = true) (h : a.agrees b = true) :
    a'.agrees b = true := by
  induction a using induction_children generalizing a' b with
  | h a ih =>
    rw [same_iff] at hs
    rw [agrees_iff] at h ⊢
    cases h with
    | anythingLeft =>
      cases hs
      exact .anythingLeft b
    | anythingRight => exact .anythingRight a'
    | precise h =>
      cases hs with
      | precise n hv => exact .precise (agreesTo_congr hv _ _ ▸ h)
    | preciseLeft hb h =>
      cases hs with
      | precise n hv => exact .preciseLeft hb (agreesTo_congr hv _ _ ▸ h)
    | preciseRight ha h =>
      obtain ⟨v, hv, hsame⟩ := hs.exists_number? ha
      exact .preciseRight hv (agreesTo_congr hsame _ _ ▸ h)
    | number ha hb h =>
      obtain ⟨v, hv, hsame⟩ := hs.exists_number? ha
      exact .number hv hb (Decimal.same_congr hsame _ ▸ h)
    | bool x =>
      cases hs
      exact .bool x
    | text s =>
      cases hs
      exact .text s
    | address h =>
      cases hs
      exact .address h
    | event e =>
      cases hs
      exact .event e
    | list h =>
      cases hs with
      | list hs => exact .list (forall₂_transfer hs h fun x hx y z hxy hxz => ih x hx hxy hxz)
    | map h =>
      cases hs with
      | map hs =>
        refine .map (forall₂_transfer hs h fun x hx y z hxy hxz => ⟨hxy.1.symm.trans hxz.1, ?_⟩)
        exact ih x.2 (List.mem_map_of_mem hx) hxy.2 hxz.2

theorem agrees_congr_left {a a' : Value} (h : a.same a' = true) (b : Value) :
    a.agrees b = a'.agrees b :=
  Bool.eq_iff_iff.mpr ⟨agrees_of_same_left h, agrees_of_same_left (same_symm h)⟩

/-! ## A value and its equals -/

theorem forall₂_iff_forall_mem {α β : Type} {P R : α → β → Prop} {p : α → Prop} {xs : List α}
    {ys : List β} (hP : List.Forall₂ P xs ys) (h : ∀ x ∈ xs, ∀ y, P x y → (R x y ↔ p x)) :
    List.Forall₂ R xs ys ↔ ∀ x ∈ xs, p x := by
  induction hP with
  | nil => simp
  | cons hxy _ ih =>
    rw [List.forall₂_cons, List.forall_mem_cons, h _ (.head _) _ hxy,
      ih fun x hx => h x (.tail _ hx)]

theorem agrees_iff_of_same {a b : Value} (hs : a.same b = true) :
    a.agrees b = true ↔ a.has .nothing = false := by
  induction a using induction_children generalizing b with
  | h a ih =>
    have hleaf (hagree : AgreeBy (fun x y => x.agrees y = true) a b)
        (hkind : Kind.nothing ≠ a.kind) (hchildren : a.children = []) :
        a.agrees b = true ↔ a.has .nothing = false :=
      iff_of_true (agrees_iff.mpr hagree) (has_eq_false_iff.mpr ⟨hkind, by simp [hchildren]⟩)
    rw [same_iff] at hs
    cases hs with
    | bool x => exact hleaf (.bool x) (by rintro ⟨⟩) rfl
    | number h => exact hleaf (.number rfl rfl h) (by rintro ⟨⟩) rfl
    | scaled h => exact hleaf (.number rfl rfl h) (by rintro ⟨⟩) rfl
    | percent h => exact hleaf (.number rfl rfl h) (by rintro ⟨⟩) rfl
    | precise n h => exact hleaf (.precise (agreesTo_of_same h _)) (by rintro ⟨⟩) rfl
    | text s => exact hleaf (.text s) (by rintro ⟨⟩) rfl
    | address s => exact hleaf (.address rfl) (by rintro ⟨⟩) rfl
    | anything => exact hleaf (.anythingLeft _) (by rintro ⟨⟩) rfl
    | nothing => simp [agrees, has, kind]
    | event e => exact hleaf (.event e) (by rintro ⟨⟩) rfl
    | list hs =>
      rw [agrees, agreeItems_iff, has, itemsHave_eq_any,
        forall₂_iff_forall_mem hs fun x hx y hxy => ih x hx hxy]
      simp
    | map hs =>
      rw [agrees, agreeEntries_iff, has, entriesHave_eq_any,
        forall₂_iff_forall_mem hs fun x hx y hxy =>
          (and_iff_right hxy.1).trans (ih x.2 (List.mem_map_of_mem hx) hxy.2)]
      simp

/-- Equal values may stand for each other on both sides of agreement, whatever the forms of their
numbers. A value agrees with its equals exactly if nothing in it is the wildcard that agrees with no
value. -/
theorem agrees_of_same :
    (∀ a a' b b' : Value, a.same a' = true → b.same b' = true → a.agrees b = a'.agrees b') ∧
    ∀ a b : Value, a.same b = true → (a.agrees b = true ↔ a.has .nothing = false) := by
  refine ⟨fun a a' b b' ha hb => ?_, fun a b => agrees_iff_of_same⟩
  rw [agrees_congr_left ha, agrees_comm, agrees_congr_left hb, agrees_comm]

/-- The number 5.1 in two forms, to as many figures as the forms have digits, beside a wildcard. -/
theorem agrees_of_same_precise :
    let a : Value := .list [.precise ⟨51, 1⟩ 2, .nothing]
    let a' : Value := .list [.precise ⟨5100, 3⟩ 2, .nothing]
    let b : Value := .list [.number ⟨5149, 3⟩, .anything]
    let b' : Value := .list [.number ⟨51490, 4⟩, .anything]
    a.same a' = true ∧ b.same b' = true ∧ a.agrees b = true ∧ a'.agrees b' = true ∧
      a.has .nothing = true ∧ a.agrees a' = false ∧ b.agrees b' = true := by
  intro a a' b b'
  have ha : a.same a' = true := by decide
  have hb : b.same b' = true := by decide
  have hagree : a.agrees b = true := by decide
  have hnothing : a.has .nothing = true := by decide
  refine ⟨ha, hb, hagree, ?_, hnothing, ?_, ?_⟩
  · rw [← agrees_of_same.1 a a' b b' ha hb]
    exact hagree
  · rw [Bool.eq_false_iff, Ne, agrees_of_same.2 a a' ha, hnothing]
    decide
  · exact (agrees_of_same.2 b b' hb).mpr (by decide)

end Scenario.Value
