import Scenario.Proofs.Evaluate.Coupling

/-!
# What evaluation does not look at

Each part of a world is read by few commands (`World.Field.readers`). An expression that names
none of them ends the same way, with the same value or the same failure, in any two worlds that
differ in that part only (`evaluate_of_differOnlyIn`). It is the coupling of the expression with
itself in such worlds.
-/

namespace Scenario

/-- Whether two worlds have every part in common but for the given one. -/
def World.DifferOnlyIn (F : World.Field) (w w' : World) : Prop :=
  ∀ G : World.Field, G ≠ F → G.Same w w'

theorem Comparison.keeps_of_ne {F G : World.Field} (h : G ≠ F) :
    (Comparison.ofWorlds (World.DifferOnlyIn F)).Keeps G :=
  fun _ _ hw => hw G h

/-- An expression of which no atom names a reader of some part of the world ends alike in worlds
that differ in that part only. -/
theorem evaluate_of_differOnlyIn (F : World.Field) (e : Expr) (he : e.Avoids F.readers)
    (w w' : World) (hw : w.DifferOnlyIn F w') : (evaluate e w).1 = (evaluate e w').1 := by
  have hkeeps (G : World.Field) :
      (Comparison.ofWorlds (World.DifferOnlyIn F)).Keeps G ∨ e.Avoids G.readers := by
    by_cases hG : G = F
    · exact .inr (hG ▸ he)
    · exact .inl (Comparison.keeps_of_ne hG)
  exact ((Dialect.core.evaluate_coupled e hkeeps nofun).ends hw).eq

/-- The clock makes no difference to a comparison that fails, whatever the case of its names. -/
theorem evaluate_of_differOnlyIn_clock :
    let e : Expr := .list [.atom "Equal", .list [.atom "eXp", .atom "1.5"], .atom "lastcontract"]
    let w := World.offline "test"
    let w' := { w with pinnedNow := some 1700000000 }
    e.Avoids World.Field.clock.readers ∧ w.DifferOnlyIn .clock w' ∧ w.now ≠ w'.now ∧
      (evaluate e w).1 = (evaluate e w').1 := by
  intro e w w'
  have he : e.Avoids World.Field.clock.readers := by decide
  have hw : w.DifferOnlyIn .clock w' := by
    intro G hG
    cases G with
    | clock => exact absurd rfl hG
    | _ => rfl
  exact ⟨he, hw, by decide, evaluate_of_differOnlyIn .clock e he w w' hw⟩

end Scenario
