import Scenario.Proofs.Decimal.Literal
import Scenario.Proofs.Evaluate.Coupling

/-!
# Equals for equals

Expressions that evaluate to the same value may stand for each other as operands of the commands
in `Core.evaluating`, at any depth: what is made of them has the same value or has none
(`evaluate_fill_eq_ok_iff`).

An operand is evaluated, or read as a number, or left for the body of the command, which does one
or the other. So two expressions are interchangeable in a world if they evaluate alike there and
read as numbers alike (`Interchangeable`). The first follows for expressions of the same value,
for evaluation changes nothing. The second takes more, as an atom is first tried as a literal: an
atom that evaluates at all begins with a letter, as the names of all commands do, and is no
literal (`readNumber_of_evaluate_ok`). One command around them keeps expressions interchangeable
(`Respected.fill`), and so does a row of commands, by induction.

What values count as alike is a parameter: any relation will do that these commands respect
(`Respected`). Here it is equality (`respected_eq`).
-/

namespace Scenario

/-! ## Contexts -/

/-- A command with one operand left open: its name in letters of either case, and its operands
before and after the open one. -/
structure Frame where
  name : String
  before : List Expr
  after : List Expr
  evaluates : ∃ n ∈ Core.evaluating, Text.sameFold n name = true

/-- The command with an expression for its open operand. -/
def Frame.fill (f : Frame) (e : Expr) : Expr :=
  .list (.atom f.name :: (f.before ++ e :: f.after))

/-- The commands around an expression, the outermost first. -/
abbrev Context := List Frame

/-- The expression with all the commands around it. -/
def Context.fill (C : Context) (e : Expr) : Expr :=
  C.foldr Frame.fill e

/-! ## Atoms that evaluate -/

theorem Core.beginsWithLetter_name (core erc20 : Reading) (m : Manual) :
    (commands core erc20 m).all (Text.beginsWithLetter ·.name) = true := by
  simp only [commands, constant, deferred, span, List.all_cons, List.all_nil]
  decide

/-- An atom with a value names a command. -/
theorem exists_command_of_evaluate_ok {s : String} {w : World} {v : Value}
    (h : (evaluate (.atom s) w).1 = .ok v) :
    ∃ c ∈ Dialect.core.commands.commands, c.isNamed s = true := by
  rw [evaluate, Dialect.evaluate_eq, Vocabulary.evaluate, Vocabulary.split?] at h
  cases hover : Dialect.core.commands.overloads s with
  | nil =>
    simp only [hover] at h
    cases h
  | cons c others =>
    have hc : c ∈ Dialect.core.commands.overloads s := by
      rw [hover]
      exact .head _
    exact ⟨c, List.mem_filter.mp hc⟩

theorem readNumber_of_evaluate_ok {s : String} {w : World} {v : Value}
    (h : (evaluate (.atom s) w).1 = .ok v) : Decimal.readNumber s = .error .notNumber := by
  obtain ⟨c, hc, hnamed⟩ := exists_command_of_evaluate_ok h
  have hname : Text.beginsWithLetter c.name = true :=
    List.all_eq_true.mp (Core.beginsWithLetter_name _ _ _) c hc
  have hs : Text.beginsWithLetter s = true := by
    rw [Text.beginsWithLetter, ← Text.sameFold_iff.mp hnamed]
    exact hname
  exact Decimal.readNumber_of_beginsWithLetter hs

/-- An expression with a value is read by that value alone, unless it is an atom that is a
literal. -/
theorem Operand.readAs_of_ok {kind : Kind} {literal : Literal} {core : Reading} {e : Expr}
    {w w' : World} {v : Value} (h : core e w = (.ok v, w'))
    (hliteral : ∀ s, e = .atom s → ∃ f, literal w s = .error f) :
    readAs kind literal core e w = expect kind e v w' := by
  cases e with
  | list es => rw [readAs, Action.bind_apply, h]
  | atom s =>
    obtain ⟨f, hf⟩ := hliteral s rfl
    have hattempt : (core (.atom s)).attempt w = (.ok (.ok v), w') := by
      rw [Action.attempt, h]
    simp only [readAs, Action.bind_apply, Action.world, hf, hattempt]

theorem evaluate_eq_pure {e : Expr} {w : World} {v : Value} (h : (evaluate e w).1 = .ok v) :
    evaluate e w = (pure v : Action Value) w :=
  Prod.ext h (evaluate_world e w)

theorem number_of_evaluate_ok {e : Expr} {w : World} {v : Value}
    (h : (evaluate e w).1 = .ok v) :
    Operand.number evaluate e w = Operand.expect .number e v w := by
  refine Operand.readAs_of_ok (evaluate_eq_pure h) fun s hs =>
    ⟨.literal .number s (.number .notNumber), ?_⟩
  rw [hs] at h
  rw [Operand.numberLiteral, readNumber_of_evaluate_ok h]

/-! ## Interchangeable expressions -/

/-- Two expressions that go alike in the world `w`, to values that `R` relates, whether they are
evaluated or read as numbers. -/
structure Interchangeable (R : Value → Value → Prop) (w : World) (e e' : Expr) : Prop where
  evaluates : (evaluate e).Coupled (.inWorld w) R (evaluate e')
  reads : (Operand.number evaluate e).Coupled (.inWorld w) R (Operand.number evaluate e')

/-- A relation of values that commands which only evaluate their operands respect. -/
structure Respected (R : Value → Value → Prop) (w : World) : Prop where
  refl : ∀ v, R v v
  accepts_eq : ∀ v v', R v v' → Kind.number.accepts v = Kind.number.accepts v'
  overloads : ∀ name, (∃ n ∈ Core.evaluating, Text.sameFold n name = true) →
    List.Forall₂ (Command.Coupled (.inWorld w) (Interchangeable R w) R)
      (Dialect.core.commands.overloads name) (Dialect.core.commands.overloads name)

theorem Interchangeable.refl {R : Value → Value → Prop} (hR : ∀ v, R v v) (w : World) (e : Expr) :
    Interchangeable R w e e := by
  have hevaluate := Dialect.core.evaluate_coupled_inWorld e w
  have hself (v v' : Value) (h : v = v') : R v v' := h ▸ hR v
  exact ⟨hevaluate.mono hself, (Operand.number_coupled hevaluate).mono hself⟩

namespace Respected

variable {R : Value → Value → Prop} {w : World} {e e' : Expr} (h : Respected R w)
include h

theorem expect_coupled {v v' : Value} (hv : R v v') :
    (Operand.expect .number e v).Coupled (.inWorld w) R (Operand.expect .number e' v') := by
  rw [Operand.expect, Operand.expect, h.accepts_eq v v' hv]
  split
  · exact .pure hv
  · exact .fail trivial

theorem of_ok {v v' : Value} (hv : R v v') (he : (evaluate e w).1 = .ok v)
    (he' : (evaluate e' w).1 = .ok v') : Interchangeable R w e e' where
  evaluates := .of_apply (evaluate_eq_pure he) (evaluate_eq_pure he') (.pure hv)
  reads := .of_apply (number_of_evaluate_ok he) (number_of_evaluate_ok he') (h.expect_coupled hv)

/-- Lists are read as numbers by their values alone. -/
theorem of_lists {es es' : List Expr}
    (hes : (evaluate (.list es)).Coupled (.inWorld w) R (evaluate (.list es'))) :
    Interchangeable R w (.list es) (.list es') where
  evaluates := hes
  reads := by
    exact hes.bind fun v v' hv => h.expect_coupled hv

/-- A command that only evaluates its operands keeps expressions interchangeable. -/
theorem fill (he : Interchangeable R w e e') (f : Frame) :
    Interchangeable R w (f.fill e) (f.fill e') := by
  have hoperands : List.Forall₂ (Interchangeable R w) (f.before ++ e :: f.after)
      (f.before ++ e' :: f.after) :=
    List.rel_append (List.forall₂_same.mpr fun x _ => .refl h.refl w x)
      (.cons he (List.forall₂_same.mpr fun x _ => .refl h.refl w x))
  refine h.of_lists ?_
  rw [evaluate, Dialect.evaluate_eq, Dialect.evaluate_eq]
  exact Vocabulary.evaluate_coupled rfl rfl rfl hoperands (h.overloads f.name f.evaluates)
    fun _ _ _ _ => trivial

theorem fill_context (he : Interchangeable R w e e') (C : Context) :
    Interchangeable R w (C.fill e) (C.fill e') := by
  induction C with
  | nil => exact he
  | cons f C ih => exact h.fill ih f

/-- Under any commands that only evaluate their operands, expressions of related values have related
values, or neither has one. -/
theorem evaluate_fill {v v' : Value} (hv : R v v') (he : (evaluate e w).1 = .ok v)
    (he' : (evaluate e' w).1 = .ok v') (C : Context) :
    (Comparison.inWorld w).Ends R (evaluate (C.fill e) w).1 (evaluate (C.fill e') w).1 :=
  (h.fill_context (h.of_ok hv he he') C).evaluates.ends ⟨rfl, rfl⟩

end Respected

theorem respected_eq (w : World) : Respected Eq w where
  refl _ := rfl
  accepts_eq _ _ hv := by rw [hv]
  overloads name hname := by
    refine Vocabulary.overloads_coupled (Core.commands_coupled (fun _ _ h => h.evaluates)
      (fun _ _ h => h.reads) (fun _ _ _ _ => trivial) (fun _ _ x _ => .refl (fun _ => rfl) w x)
      ?erc20 _ _) ?needs
    case erc20 =>
      exact fun _ _ _ es _ => Dialect.erc20.evaluate_coupled_inWorld (.list es) w
    case needs =>
      -- A command that goes by this name is one of those that only evaluate their operands.
      intro m hm
      refine ⟨fun F _ => Comparison.inWorld_keeps w F, fun hother => ?_⟩
      obtain ⟨n, hn, hsame⟩ := hname
      have hnm : Text.sameFold n m = true := by
        rw [Text.sameFold_iff] at hm hsame ⊢
        rw [hsame, hm]
      rw [hother n hn] at hnm
      cases hnm

/-- Expressions that evaluate to the same value may stand for each other under any commands that
evaluate their operands: the outcome has the same value, or neither has one. -/
theorem evaluate_fill_eq_ok_iff (w : World) (e₁ e₂ : Expr) (v : Value)
    (h₁ : (evaluate e₁ w).1 = .ok v) (h₂ : (evaluate e₂ w).1 = .ok v) (C : Context) (u : Value) :
    (evaluate (C.fill e₁) w).1 = .ok u ↔ (evaluate (C.fill e₂) w).1 = .ok u := by
  have hends := (respected_eq w).evaluate_fill rfl h₁ h₂ C
  generalize (evaluate (C.fill e₁) w).1 = r, (evaluate (C.fill e₂) w).1 = r' at hends ⊢
  cases hends with
  | ok heq => rw [heq]
  | error _ => simp

/-- A constant and a literal of the same value, negated within a list. -/
theorem evaluate_fill_eq_ok_iff_zero :
    let w := World.offline "test"
    let e₁ : Expr := .atom "ZERO"
    let e₂ : Expr := .list [.atom "exactly", .atom "0"]
    let C : Context := [⟨"list", [.atom "True"], [e₁], by decide⟩, ⟨"nEg", [], [], by decide⟩]
    (evaluate e₁ w).1 = .ok (.number ⟨0, 0⟩) ∧ (evaluate e₂ w).1 = .ok (.number ⟨0, 0⟩) ∧
      ∀ u, (evaluate (C.fill e₁) w).1 = .ok u ↔ (evaluate (C.fill e₂) w).1 = .ok u := by
  intro w e₁ e₂ C
  have hover : Dialect.core.commands.overloads "ZERO" =
        [Core.constant "Zero" "The number 0." (.number ⟨0, 0⟩)] ∧
      Dialect.core.commands.overloads "exactly" =
        [Core.deferred "Exactly" "The given number, e.g. `Exactly 1.5`." "amt"
          (Operand.number evaluate)] := by
    simp only [Vocabulary.overloads, Dialect.commands, Dialect.vocabulary, Core.vocabulary,
      Core.commands, Command.isNamed, Core.constant, Core.deferred, Core.span]
    simp +decide only [List.filter_cons]
    exact ⟨rfl, rfl⟩
  have h₁ : (evaluate e₁ w).1 = .ok (.number ⟨0, 0⟩) := by
    rw [evaluate, Dialect.evaluate_eq]
    simp only [Vocabulary.evaluate, e₁, Vocabulary.split?, hover.1, Vocabulary.bindFirst]
    rfl
  have h₂ : (evaluate e₂ w).1 = .ok (.number ⟨0, 0⟩) := by
    rw [evaluate, Dialect.evaluate_eq]
    simp only [Vocabulary.evaluate, e₂, Vocabulary.split?, hover.2, Vocabulary.bindFirst]
    rfl
  exact ⟨h₁, h₂, evaluate_fill_eq_ok_iff w e₁ e₂ _ h₁ h₂ C⟩

end Scenario
