import Scenario.Proofs.Action
import Scenario.Proofs.Evaluate.Coupling

/-!
# Sessions

A session is a row of steps in a world that lives through all of them. Some change the world on
purpose, others evaluate an expression. As the latter leave the world as it is, whatever they end
with, they may be left out: `Session.run_kept` compares a session with what is left of it.
-/

namespace Scenario

theorem evaluateText_world (src : String) (w : World) : (evaluateText src w).2 = w := by
  rw [evaluateText]
  cases readCommand src with
  | ok e => exact evaluate_world e w
  | error f => rfl

/-- A step of a session. -/
inductive Step where
  | addAddress (name address : String)
  | recordContract (address : String)
  | recordInvocation (invocation : Invocation)
  | setMantissa (decimals : Nat)
  | pinClock (now : Int)
  | setClient (client : Client)
  | evaluate (e : Expr)
  | evaluateText (src : String)

namespace Step

/-- Whether a step evaluates an expression. -/
def isEvaluation : Step → Bool
  | evaluate _ => true
  | evaluateText _ => true
  | _ => false

/-- Runs a step. The answer is the value of an evaluation, or nothing for a change that was made. -/
def run : Step → Action (Option Value)
  | addAddress name address => fun w =>
    let (answer, w') := w.register name address
    ((answer.mapError .config).map fun _ => none, w')
  | recordContract address => fun w => (.ok none, w.recordContract address)
  | recordInvocation invocation => fun w => (.ok none, w.recordInvocation invocation)
  | setMantissa decimals => fun w => (.ok none, { w with mantissaDecimals := decimals })
  | pinClock now => fun w => (.ok none, { w with pinnedNow := some now })
  | setClient client => fun w => (.ok none, { w with client := client })
  | evaluate e => some <$> Scenario.evaluate e
  | evaluateText src => some <$> Scenario.evaluateText src

theorem run_world_of_isEvaluation {s : Step} (hs : s.isEvaluation = true) (w : World) :
    (s.run w).2 = w := by
  cases s with
  | evaluate e => rw [run, Action.map_world, evaluate_world]
  | evaluateText src => rw [run, Action.map_world, evaluateText_world]
  | _ => cases hs

end Step

namespace Session

/-- Runs the steps of a session one after the other: the answers and the world that is left. -/
def run : List Step → World → List (Except Failure (Option Value)) × World
  | [], w => ([], w)
  | s :: ss, w =>
    let (answer, w₁) := s.run w
    let (answers, w') := run ss w₁
    (answer :: answers, w')

/-- The members of a row that are marked to be kept. -/
def kept {α : Type} (xs : List (α × Bool)) : List α :=
  (xs.filter Prod.snd).map Prod.fst

variable {α : Type} {x : α} {xs : List (α × Bool)}

theorem kept_cons_true : kept ((x, true) :: xs) = x :: kept xs := rfl

theorem kept_cons_false : kept ((x, false) :: xs) = kept xs := rfl

theorem run_cons (s : Step) (ss : List Step) (w : World) :
    run (s :: ss) w = ((s.run w).1 :: (run ss (s.run w).2).1, (run ss (s.run w).2).2) := rfl

theorem length_answers (ss : List Step) (w : World) : (run ss w).1.length = ss.length := by
  induction ss generalizing w with
  | nil => rfl
  | cons s ss ih => rw [run_cons, List.length_cons, List.length_cons, ih]

/-- Evaluation leaves the world as it is. So leaving out any evaluations of a session changes
neither the world that it ends in nor the answer of any other step. -/
theorem run_kept :
    (∀ e w, (Scenario.evaluate e w).2 = w) ∧
    ∀ (steps : List (Step × Bool)) (w : World),
      (run (steps.map Prod.fst) w).1.length = steps.length ∧
      ((∀ s ∈ steps, s.2 = false → s.1.isEvaluation = true) →
        run (kept steps) w =
          (kept ((run (steps.map Prod.fst) w).1.zip (steps.map Prod.snd)),
            (run (steps.map Prod.fst) w).2)) := by
  refine ⟨evaluate_world, fun steps w => ⟨?_, fun h => ?_⟩⟩
  · rw [length_answers, List.length_map]
  · -- Both sessions reach every step that is kept in the same world.
    induction steps generalizing w with
    | nil => rfl
    | cons s steps ih =>
      obtain ⟨s, keep⟩ := s
      rw [List.forall_mem_cons] at h
      rw [List.map_cons, List.map_cons, run_cons, List.zip_cons_cons]
      cases keep with
      | true => rw [kept_cons_true, kept_cons_true, run_cons, ih _ h.2]
      | false =>
        rw [kept_cons_false, kept_cons_false, Step.run_world_of_isEvaluation (h.1 rfl) w, ih w h.2]

/-- A command that fails and one that does not are left out of a session. -/
theorem run_kept_record :
    let steps : List (Step × Bool) :=
      [(.evaluate (.list [.atom "Exactly"]), false), (.recordContract "0xab", true),
        (.evaluateText "(Neg 1)", false), (.evaluate (.atom "LastContract"), true)]
    let w := World.offline "test"
    (∀ s ∈ steps, s.2 = false → s.1.isEvaluation = true) ∧
      run [.recordContract "0xab", .evaluate (.atom "LastContract")] w =
        (kept ((run (steps.map Prod.fst) w).1.zip [false, true, false, true]),
          w.recordContract "0xab") := by
  intro steps w
  have h : ∀ s ∈ steps, s.2 = false → s.1.isEvaluation = true := by decide
  have hworld : (run (steps.map Prod.fst) w).2 = w.recordContract "0xab" := by
    simp only [steps, List.map_cons, List.map_nil, run_cons, run, Step.run, Action.map_world,
      evaluate_world, evaluateText_world]
  refine ⟨h, ((run_kept.2 steps w).2 h).trans ?_⟩
  rw [hworld]
  rfl

end Session

end Scenario
