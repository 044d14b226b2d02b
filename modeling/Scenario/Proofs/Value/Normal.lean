import Scenario.Proofs.Value.Agreement

/-!
# Agreement as equality of normal forms

The normal form of a value (`normal`) leaves out all that agreement does not look at: of a number
its kind and its scale, of an address the case of its letters. Among values without wildcards and
without numbers of limited precision (`Plain`), those with the same normal form are the ones that
agree (`agrees_iff_normal_eq`). So agreement is an equivalence there, which the list of ways to
agree does not show: that it is transitive rests on all of them.
-/

namespace Scenario

/-- A value as agreement sees it. -/
inductive Normal where
  | bool (value : Bool)
  | number (value : ℚ)
  | precise (value : ℚ) (figures : Nat)
  | text (value : String)
  | address (value : String)
  | list (items : List Normal)
  | map (entries : List (String × Normal))
  | anything
  | nothing
  | event (expr : Expr)

namespace Value

mutual

/-- The normal form: numbers of each kind by their exact value, addresses in lower case. -/
def normal : Value → Normal
  | bool x => .bool x
  | number v => .number v.toRat
  | scaled v => .number v.toRat
  | percent v => .number v.toRat
  | precise v n => .precise v.toRat n
  | text s => .text s
  | address s => .address (Text.fold s)
  | list items => .list (normalItems items)
  | map entries => .map (normalEntries entries)
  | anything => .anything
  | nothing => .nothing
  | event e => .event e

/-- The normal forms of a row of values. -/
def normalItems : List Value → List Normal
  | [] => []
  | x :: xs => normal x :: normalItems xs

/-- The entries of a row with their values in normal form. -/
def normalEntries : List (String × Value) → List (String × Normal)
  | [] => []
  | (k, x) :: xs => (k, normal x) :: normalEntries xs

end

/-- Whether neither a wildcard nor a number of limited precision occurs in a value. -/
def Plain (a : Value) : Prop :=
  ∀ k ∈ [Kind.anything, Kind.nothing, Kind.precise], a.has k = false

instance (a : Value) : Decidable a.Plain :=
  inferInstanceAs (Decidable (∀ k ∈ [Kind.anything, Kind.nothing, Kind.precise], a.has k = false))

theorem Plain.kind_notMem {a : Value} (h : a.Plain) :
    a.kind ∉ [Kind.anything, Kind.nothing, Kind.precise] :=
  fun hk => (has_eq_false_iff.mp (h a.kind hk)).1 rfl

theorem Plain.child {a x : Value} (h : a.Plain) (hx : x ∈ a.children) : x.Plain :=
  fun k hk => (has_eq_false_iff.mp (h k hk)).2 x hx

/-! ## Normal forms level by level -/

theorem normalItems_eq_map (xs : List Value) : normalItems xs = xs.map normal := by
  induction xs with
  | nil => rw [normalItems, List.map_nil]
  | cons x xs ih => rw [normalItems, List.map_cons, ih]

theorem normalEntries_eq_map (xs : Entries Value) :
    normalEntries xs = xs.map fun x => (x.1, x.2.normal) := by
  induction xs with
  | nil => rw [normalEntries, List.map_nil]
  | cons x xs ih => rw [normalEntries, List.map_cons, ih]

theorem normalItems_eq_iff {xs ys : List Value} :
    normalItems xs = normalItems ys ↔ List.Forall₂ (fun x y => x.normal = y.normal) xs ys := by
  rw [normalItems_eq_map, normalItems_eq_map, ← List.forall₂_eq_eq_eq,
    List.forall₂_map_left_iff, List.forall₂_map_right_iff]

theorem normalEntries_eq_iff {xs ys : Entries Value} :
    normalEntries xs = normalEntries ys ↔
      List.Forall₂ (fun x y => x.1 = y.1 ∧ x.2.normal = y.2.normal) xs ys := by
  rw [normalEntries_eq_map, normalEntries_eq_map, ← List.forall₂_eq_eq_eq,
    List.forall₂_map_left_iff, List.forall₂_map_right_iff]
  simp only [Prod.mk.injEq]

theorem normal_eq_number_iff {a : Value} {q : ℚ} :
    a.normal = .number q ↔ ∃ v, a.number? = some v ∧ v.toRat = q := by
  cases a <;> simp [normal, number?]

/-- Values that agree have the same normal form, if their parts do. -/
theorem AgreeBy.normal_eq {a b : Value} (h : AgreeBy (fun x y => x.normal = y.normal) a b)
    (ha : a.Plain) (hb : b.Plain) : a.normal = b.normal := by
  cases h with
  | anythingLeft => exact absurd (by simp [kind]) ha.kind_notMem
  | anythingRight => exact absurd (by simp [kind]) hb.kind_notMem
  | precise => exact absurd (by simp [kind]) ha.kind_notMem
  | preciseLeft => exact absurd (by simp [kind]) ha.kind_notMem
  | preciseRight => exact absurd (by simp [kind]) hb.kind_notMem
  | number ha hb h =>
    rw [normal_eq_number_iff.mpr ⟨_, ha, rfl⟩, normal_eq_number_iff.mpr ⟨_, hb, rfl⟩,
      Decimal.same_iff_toRat_eq.mp h]
  | bool x => rfl
  | text s => rfl
  | address h => rw [normal, normal, h]
  | event e => rfl
  | list h => rw [normal, normal, normalItems_eq_iff.mpr h]
  | map h => rw [normal, normal, normalEntries_eq_iff.mpr h]

/-- Values with the same normal form agree, if their parts do. -/
theorem agreeBy_of_normal_eq {a b : Value} (ha : a.Plain) (h : a.normal = b.normal) :
    AgreeBy (fun x y => x.normal = y.normal) a b := by
  cases hv : a.number? with
  | some v =>
    rw [normal_eq_number_iff.mpr ⟨v, hv, rfl⟩] at h
    obtain ⟨w, hw, hvw⟩ := normal_eq_number_iff.mp h.symm
    exact .number hv hw (Decimal.same_iff_toRat_eq.mpr hvw.symm)
  | none =>
    cases a with
    | number | scaled | percent => cases hv
    | anything | nothing | precise => exact absurd (by simp [kind]) ha.kind_notMem
    | bool x =>
      cases b with
      | bool y =>
        cases h
        exact .bool x
      | _ => cases h
    | text s =>
      cases b with
      | text t =>
        cases h
        exact .text s
      | _ => cases h
    | address s =>
      cases b with
      | address t => exact .address (Normal.address.inj h)
      | _ => cases h
    | event e =>
      cases b with
      | event f =>
        cases h
        exact .event e
      | _ => cases h
    | list items =>
      cases b with
      | list others => exact .list (normalItems_eq_iff.mp (Normal.list.inj h))
      | _ => cases h
    | map entries =>
      cases b with
      | map others => exact .map (normalEntries_eq_iff.mp (Normal.map.inj h))
      | _ => cases h

theorem agrees_iff_of_plain {a b : Value} (ha : a.Plain) (hb : b.Plain) :
    a.agrees b = true ↔ a.normal = b.normal := by
  induction a using induction_children generalizing b with
  | h a ih =>
    have hparts : ∀ x ∈ a.children, ∀ y ∈ b.children,
        (x.agrees y = true ↔ x.normal = y.normal) :=
      fun x hx y hy => ih x hx (ha.child hx) (hb.child hy)
    rw [agrees_iff]
    constructor
    · intro h
      exact (h.imp_children fun x hx y hy => (hparts x hx y hy).mp).normal_eq ha hb
    · intro h
      exact (agreeBy_of_normal_eq ha h).imp_children fun x hx y hy => (hparts x hx y hy).mpr

/-- Values without wildcards and numbers of limited precision agree if their normal forms are the
same, so among them agreement is an equivalence. -/
theorem agrees_iff_normal_eq :
    (∀ a b : Value, a.Plain → b.Plain → (a.agrees b = true ↔ a.normal = b.normal)) ∧
    Equivalence fun a b : { v : Value // v.Plain } => a.1.agrees b.1 = true := by
  refine ⟨fun a b => agrees_iff_of_plain, ?_, ?_, ?_⟩
  · exact fun a => (agrees_iff_of_plain a.2 a.2).mpr rfl
  · exact fun h => agrees_symm h
  · intro a b c hab hbc
    rw [agrees_iff_of_plain a.2 b.2] at hab
    rw [agrees_iff_of_plain b.2 c.2] at hbc
    exact (agrees_iff_of_plain a.2 c.2).mpr (hab.trans hbc)

/-- A percentage and an address within a map, each written in two ways. -/
theorem agrees_iff_normal_eq_map :
    let a : Value := .map [("k", .list [.percent ⟨50, 1⟩, .address "0xAB"])]
    let b : Value := .map [("k", .list [.number ⟨5, 0⟩, .address "0Xab"])]
    a.Plain ∧ b.Plain ∧ a.agrees b = true ∧ a.normal = b.normal := by
  intro a b
  have ha : a.Plain := by decide
  have hb : b.Plain := by decide
  have hagree : a.agrees b = true := by decide
  exact ⟨ha, hb, hagree, (agrees_iff_normal_eq.1 a b ha hb).mp hagree⟩

end Value

end Scenario
