import Scenario.Proofs.Evaluate.Coupling

/-!
# Nested evaluations

A vocabulary evaluates one expression; the evaluations that its commands go on to are parameters
of it. `Dialect.round` is that one evaluation, with whatever is taken for the nested ones, and
`Dialect.Asks` says of two evaluations that the outcome of the one rests on the outcome of the
other. The evaluation that is asked is always of smaller rank (`Dialect.Asks.rank_lt`), so no chain
of nested evaluations goes on for ever, and only one evaluator takes its own outcomes for those of
the nested evaluations (`Dialect.eq_evaluate_iff`).

`Dialect.evaluateWithin` takes the nested evaluations only so far and then gives up, with an action
that can do anything, even change the world. Within the rank of an expression it never does
(`Dialect.evaluateWithin_eq`).
-/

namespace Scenario

namespace Dialect

/-- One evaluation, in which those nested directly in it are taken from `nested`. -/
def round (nested : Dialect → Reading) (d : Dialect) : Reading :=
  (d.vocabulary (nested .core) (nested .erc20)).evaluate

/-- Evaluates with at most `n` evaluations nested in each other, the outermost included; what goes
beyond is left to `giveUp`. -/
def evaluateWithin (giveUp : Dialect → Reading) : Nat → Dialect → Reading
  | 0 => giveUp
  | n + 1 => round (evaluateWithin giveUp n)

/-- Whether the outcome of one evaluation rests on that of another, nested directly in it: some
change to the nested one alone changes the outer one. -/
def Asks (outer inner : Dialect × Expr) : Prop :=
  ∃ f g : Dialect → Reading, (∀ d e, (d, e) ≠ inner → f d e = g d e) ∧
    round f outer.1 outer.2 ≠ round g outer.1 outer.2

theorem rank_pos (d : Dialect) (e : Expr) : 0 < d.rank e := by
  cases d with
  | core => exact Nat.succ_pos _
  | erc20 => cases e <;> exact Nat.succ_pos _

theorem round_congr {f g : Dialect → Reading} {d : Dialect} {e : Expr}
    (h : ∀ d' e', d'.rank e' < d.rank e → f d' e' = g d' e') : round f d e = round g d e :=
  vocabulary_evaluate_congr d e (h .core) (h .erc20)

theorem evaluate_eq_round (d : Dialect) (e : Expr) : d.evaluate e = round evaluate d e :=
  d.evaluate_eq e

theorem Asks.rank_lt {outer inner : Dialect × Expr} (h : Asks outer inner) :
    inner.1.rank inner.2 < outer.1.rank outer.2 := by
  obtain ⟨f, g, hothers, hdiffer⟩ := h
  by_contra hrank
  refine hdiffer (round_congr fun d e hlt => hothers d e ?_)
  rintro rfl
  exact hrank hlt

theorem asks_wellFounded : WellFounded fun inner outer => Asks outer inner :=
  Subrelation.wf Asks.rank_lt (measure fun x : Dialect × Expr => x.1.rank x.2).wf

theorem eq_evaluate_iff (f : Dialect → Reading) :
    (∀ d e, f d e = round f d e) ↔ f = evaluate := by
  constructor
  · intro hround
    funext d e
    -- Two such evaluators take the same outcomes for all evaluations of smaller rank.
    induction hn : d.rank e using Nat.strong_induction_on generalizing d e with
    | _ n ih =>
      rw [hround, evaluate_eq_round]
      exact round_congr fun d' e' hlt => ih _ (hn ▸ hlt) d' e' rfl
  · rintro rfl
    exact evaluate_eq_round

theorem evaluateWithin_eq (giveUp : Dialect → Reading) {n : Nat} {d : Dialect} {e : Expr}
    (h : d.rank e ≤ n) : evaluateWithin giveUp n d e = d.evaluate e := by
  induction n generalizing d e with
  | zero => exact absurd h (Nat.not_le.mpr (rank_pos d e))
  | succ n ih =>
    rw [evaluateWithin, evaluate_eq_round]
    exact round_congr fun d' e' hlt => ih (Nat.le_of_lt_succ (Nat.lt_of_lt_of_le hlt h))

end Dialect

/-- Evaluation is a well-founded recursion, the only evaluator that agrees with what the
vocabularies make of its own outcomes, and it goes no deeper than twice the depth of the
expression, and two: one that gives up beyond that many evaluations comes to the same. -/
theorem evaluate_nesting :
    (WellFounded fun inner outer => Dialect.Asks outer inner) ∧
    (∀ f : Dialect → Reading,
      (∀ d e, f d e = Dialect.round f d e) ↔ f = Dialect.evaluate) ∧
    ∀ (giveUp : Dialect → Reading) (n : Nat) (e : Expr) (w : World), 2 * (e.depth + 1) ≤ n →
      Dialect.evaluateWithin giveUp n .core e w = evaluate e w := by
  refine ⟨Dialect.asks_wellFounded, Dialect.eq_evaluate_iff, fun giveUp n e w hn => ?_⟩
  have hrank : Dialect.core.rank e ≤ n := by
    rw [Dialect.rank]
    omega
  exact congrFun (Dialect.evaluateWithin_eq giveUp hrank) w

/-- To read `Erc20` as a token, the query for its name evaluates it as a command, which leads back
into the queries. That makes four evaluations at depth 1: four are enough, and with three the
giving up shows. -/
theorem evaluate_nesting_token_name :
    let e := Expr.list [.atom "Erc20", .atom "Name", .atom "Erc20"]
    let giveUp : Dialect → Reading := fun _ _ => do
      Action.modify (·.recordContract "reached")
      return .anything
    2 * (e.depth + 1) = 4 ∧
    Dialect.evaluateWithin giveUp 4 .core e (.offline "") = evaluate e (.offline "") ∧
    (Dialect.evaluateWithin giveUp 3 .core e (.offline "")).2.lastContract = some "reached" := by
  intro e giveUp
  exact ⟨rfl, evaluate_nesting.2.2 giveUp 4 e (.offline "") (by decide), by decide +kernel⟩

end Scenario
