import Scenario.Proofs.Decimal.Digits
import Scenario.Proofs.Decimal.Nearest
import Scenario.Proofs.Evaluate.Failures
import Scenario.Proofs.Evaluate.Substitution
import Scenario.Proofs.Value.Agreement
import Scenario.Proofs.Vocabulary.Overloads

/-!
# Numbers that match a precise literal

A precise literal is compared to as many figures as it is written with. It has no more digits than
that (`length_digits_le_figures`), so rounding leaves it as it is (`same_roundFigures`) and the
numbers that agree with it are those that round to it (`agrees_precise_of_rounded`). `Equal` gives
that agreement as its value (`evaluate_equal`), and `Precisely` gives the literal as it is written
(`evaluate_precisely`).
-/

namespace Scenario

variable {w : World} {x y : Expr} {a b : Value} {s : String} {v n : Decimal} {k : Nat}

/-! ## Agreement -/

/-- A number of so many figures is what it is rounded to. -/
theorem Decimal.same_roundFigures (hk : 0 < k) (hv : v.digits.length ≤ k) :
    (v.roundFigures k).same v = true := by
  have hround := rounds_roundSignificant v.toRat hk
  rw [same_iff_toRat_eq, toRat_roundFigures]
  exact hround.unique (zero_mem_withFigures hk) (.refl ⟨v, hv, rfl⟩)

theorem Value.agrees_precise (ha : a.number? = some n) :
    (precise v k).agrees a = agreesTo k v n := by
  rcases number?_eq_some_iff.mp ha with rfl | rfl | rfl <;> simp [agrees, number?]

theorem Value.agrees_precise_of_rounded (hv : (v.roundFigures k).same v = true)
    (ha : a.number? = some n) :
    (precise v k).agrees a = (n.roundFigures k).same v := by
  rw [agrees_precise ha, agreesTo, Decimal.same_congr hv, Decimal.same_comm]

/-! ## Evaluation -/

theorem overloads_equal :
    ∃ c, Dialect.core.commands.overloads "Equal" = [c] ∧
      c.params = [{ name := "given", reading := evaluate },
        { name := "expected", reading := evaluate }] ∧
      c.body = fun args => .ofExcept (Core.equal args) := by
  simp only [Vocabulary.overloads, Dialect.commands, Dialect.vocabulary, Core.vocabulary,
    Core.commands, Command.isNamed, Core.constant, Core.deferred, Core.span]
  simp +decide only [List.filter_cons]
  exact ⟨_, rfl, rfl, rfl⟩

theorem overloads_precisely :
    ∃ c, Dialect.core.commands.overloads "Precisely" = [c] ∧
      c.params = [{ name := "amt", reading := Operand.text evaluate }] ∧
      c.body = fun args => .ofExcept (do Core.precisely (← args.text "amt")) := by
  simp only [Vocabulary.overloads, Dialect.commands, Dialect.vocabulary, Core.vocabulary,
    Core.commands, Command.isNamed, Core.constant, Core.deferred, Core.span]
  simp +decide only [List.filter_cons]
  exact ⟨_, rfl, rfl, rfl⟩

/-- Both operands are evaluated, and the value is whether the second agrees with the first. -/
theorem evaluate_equal (hx : (evaluate x w).1 = .ok a) (hy : (evaluate y w).1 = .ok b) :
    evaluate (.list [.atom "Equal", x, y]) w = (.ok (.bool (b.agrees a)), w) := by
  obtain ⟨c, hover, hps, hbody⟩ := overloads_equal
  have hbind : c.bind [x, y] w =
      (.ok (Entries.put "expected" (.one b) [("given", .one a)]), w) := by
    rw [Command.bind_two hps rfl rfl rfl rfl]
    simp only [Command.readOne, Bool.false_eq_true, if_false, Action.bind_apply, Action.map_apply,
      evaluate_eq_pure hx, evaluate_eq_pure hy, Action.pure_apply]
  rw [evaluate, Dialect.evaluate_eq, Vocabulary.evaluate_of_bind_ok rfl hover hbind, hbody]
  rfl

/-- The operand is a text as it stands. -/
theorem evaluate_precisely (s : String) (w : World) :
    evaluate (.list [.atom "Precisely", .atom s]) w = (Core.precisely s, w) := by
  obtain ⟨c, hover, hps, hbody⟩ := overloads_precisely
  have hbind : c.bind [.atom s] w = (.ok [("amt", .one (.text s))], w) := by
    rw [Command.bind_one hps rfl rfl]
    rfl
  rw [evaluate, Dialect.evaluate_eq, Vocabulary.evaluate_of_bind_ok rfl hover hbind, hbody]
  rfl

/-- A precise literal has at least one figure and is what it rounds to at that many. The numbers of
any kind that agree with it are those that round to it, and `Equal` says of each whether it does. -/
theorem precisely_matches (s : String) (v : Decimal) (hs : Decimal.readDecimal s = .ok v) :
    1 ≤ Decimal.figures s ∧ (v.roundFigures (Decimal.figures s)).same v = true ∧
    ∀ (a : Value) (n : Decimal), a.number? = some n →
      ((Value.precise v (Decimal.figures s)).agrees a = true ↔
        (n.roundFigures (Decimal.figures s)).same v = true) ∧
      ∀ (x : Expr) (w : World), (evaluate x w).1 = .ok a →
        evaluate (.list [.atom "Equal", x, .list [.atom "Precisely", .atom s]]) w =
          (.ok (.bool ((n.roundFigures (Decimal.figures s)).same v)), w) := by
  obtain ⟨hpos, hdigits⟩ := Decimal.length_digits_le_figures hs
  have hround := Decimal.same_roundFigures hpos hdigits
  refine ⟨hpos, hround, fun a n ha => ?_⟩
  have hagrees := Value.agrees_precise_of_rounded hround ha
  refine ⟨by rw [hagrees], fun x w hx => ?_⟩
  have hliteral : (evaluate (.list [.atom "Precisely", .atom s]) w).1 =
      .ok (.precise v (Decimal.figures s)) := by
    rw [evaluate_precisely, Core.precisely, hs]
  rw [evaluate_equal hx hliteral, hagrees]

/-- A number that differs from the literal in the sixth figure only, of which the literal has
five. -/
theorem precisely_matches_last_figure :
    let v : Decimal := ⟨51000, 4⟩
    let n : Decimal := ⟨510004, 5⟩
    let x : Expr := .list [.atom "Exactly", .atom "5.10004"]
    let w := World.offline "test"
    Decimal.readDecimal "5.1000" = .ok v ∧ v.same n = false ∧
      (evaluate x w).1 = .ok (.number n) ∧ (Value.precise v 5).agrees (.number n) = true ∧
      evaluate (.list [.atom "Equal", x, .list [.atom "Precisely", .atom "5.1000"]]) w =
        (.ok (.bool true), w) := by
  intro v n x w
  have hread : Decimal.readDecimal "5.1000" = .ok v := by decide
  have hsame : (n.roundFigures (Decimal.figures "5.1000")).same v = true := by decide
  have hover : Dialect.core.commands.overloads "Exactly" = _ := overloads_exactly _ _ _
  have hx : (evaluate x w).1 = .ok (.number n) := by
    rw [evaluate, Dialect.evaluate_eq]
    simp only [Vocabulary.evaluate, x, Vocabulary.split?, hover, Vocabulary.bindFirst]
    rfl
  obtain ⟨hagrees, hequal⟩ := (precisely_matches "5.1000" v hread).2.2 (.number n) n rfl
  refine ⟨hread, by decide, hx, hagrees.mpr hsame, ?_⟩
  rw [hequal x w hx, hsame]

end Scenario
