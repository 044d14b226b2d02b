import Scenario.Proofs.Decimal.Nearest
import Scenario.Proofs.Evaluate.Atoms

/-!
# Spans of time

The spans of time and `FromNow` read one number and round what they make of it to whole seconds.
Whatever the operand is, once it is read the body has it as its argument
(`evaluate_of_number_operand`); the arithmetic on decimals is that of their numbers, and rounding
is correct (`Decimal.rounds_roundWhole`). So the value is the whole number nearest to the exact
result (`rounds_spans`).
-/

namespace Scenario

open Decimal (Rounds withPlaces)

variable {x : Expr} {w : World} {a : Value} {n : Decimal} {name : String}

/-- The commands for spans of time, with the seconds in their unit. -/
def Core.spans : List (String × Nat) :=
  [("Minutes", 60), ("Hours", 3600), ("Days", 86400), ("Weeks", 604800), ("Years", 31536000)]

/-- Each of them is in the table of core commands. -/
theorem exists_span_mem {command : String × Nat} (h : command ∈ Core.spans) :
    ∃ description param, Core.span evaluate command.1 description param command.2 ∈
      Dialect.core.commands.commands := by
  simp only [Core.spans, List.mem_cons, List.not_mem_nil, or_false] at h
  rcases h with rfl | rfl | rfl | rfl | rfl
  all_goals exact ⟨_, _, by repeat (first | exact .head _ | apply List.Mem.tail)⟩

theorem exists_fromNow_mem : ∃ c ∈ Dialect.core.commands.commands, c.name = "FromNow" ∧
    c.params = [{ name := "seconds", reading := Operand.number evaluate }] ∧
    c.body = Core.fromNow := by
  simp [Dialect.commands, Dialect.vocabulary, Core.vocabulary, Core.commands, Core.constant,
    Core.deferred, Core.span, evaluate]

/-- A core command with a number for its operand runs on the value that this is read as. -/
theorem evaluate_of_number_operand {c : Command} {param : String}
    (hc : c ∈ Dialect.core.commands.commands) (hname : Text.sameFold c.name name = true)
    (hparams : c.params = [{ name := param, reading := Operand.number evaluate }])
    (hx : (Operand.number evaluate x w).1 = .ok a) :
    evaluate (.list [.atom name, x]) w = c.body [(param, .one a)] w := by
  have hover : Dialect.core.commands.overloads name = [c] :=
    Vocabulary.overloads_eq_singleton (Core.nodup_names _ _ _) hc hname
  have hworld : (Operand.number evaluate x w).2 = w :=
    (Operand.number_coupled (Dialect.core.evaluate_coupled_inWorld x w)).world_eq
  have hread : Operand.number evaluate x w = (.ok a, w) := Prod.ext hx hworld
  have hbind : c.bind [x] w = (.ok [(param, .one a)], w) := by
    rw [Command.bind_one hparams rfl rfl]
    simp only [Command.readOne, Bool.false_eq_true, if_false, Action.map_apply, hread]
  rw [evaluate, Dialect.evaluate_eq, Vocabulary.evaluate_of_bind_ok rfl hover hbind]

theorem Arguments.number_singleton (param : String) (ha : a.number? = some n) :
    Arguments.number [(param, .one a)] param = .ok n :=
  content_eq_ok (by simp [Entries.get?]) ha

theorem evaluate_span {command : String × Nat} (hcommand : command ∈ Core.spans)
    (hname : Text.sameFold command.1 name = true)
    (hx : (Operand.number evaluate x w).1 = .ok a) (ha : a.number? = some n) :
    evaluate (.list [.atom name, x]) w =
      (.ok (.number (n.mul (.ofInt command.2)).roundWhole), w) := by
  obtain ⟨description, param, hc⟩ := exists_span_mem hcommand
  rw [evaluate_of_number_operand hc hname rfl hx]
  simp only [Core.span, Arguments.number_singleton param ha]
  rfl

theorem evaluate_fromNow (hname : Text.sameFold "FromNow" name = true)
    (hx : (Operand.number evaluate x w).1 = .ok a) (ha : a.number? = some n) :
    evaluate (.list [.atom name, x]) w =
      (.ok (.number (n.add (.ofInt w.now)).roundWhole), w) := by
  obtain ⟨c, hc, hcname, hparams, hbody⟩ := exists_fromNow_mem
  rw [evaluate_of_number_operand hc (hcname ▸ hname) hparams hx, hbody]
  simp only [Core.fromNow, Arguments.number_singleton _ ha]
  rfl

/-- Rounding to a scale gives the nearest number of as many places, a tie going away from zero, and
leaves a decimal of no larger scale as it is. So the spans of time are the nearest whole number of
seconds, and `FromNow` is the nearest whole second. -/
theorem rounds_spans :
    (∀ (v : Decimal) (s : ℤ), Rounds (withPlaces s) v.toRat (v.roundTo s).toRat ∧
      (v.scale ≤ s → v.roundTo s = v)) ∧
    ∀ (x : Expr) (w : World) (a : Value) (n : Decimal),
      (Operand.number evaluate x w).1 = .ok a → a.number? = some n →
      (∀ command ∈ Core.spans, ∀ name, Text.sameFold command.1 name = true →
        ∃ r, evaluate (.list [.atom name, x]) w = (.ok (.number r), w) ∧
          Rounds (Set.range ((↑) : ℤ → ℚ)) (n.toRat * command.2) r.toRat) ∧
      ∀ name, Text.sameFold "FromNow" name = true →
        ∃ r, evaluate (.list [.atom name, x]) w = (.ok (.number r), w) ∧
          Rounds (Set.range ((↑) : ℤ → ℚ)) (n.toRat + w.now) r.toRat := by
  refine ⟨fun v s => ⟨Decimal.rounds_roundTo v s, fun hs => if_pos hs⟩, fun x w a n hx ha => ?_⟩
  constructor
  · intro command hcommand name hname
    refine ⟨_, evaluate_span hcommand hname hx ha, ?_⟩
    have hround := Decimal.rounds_roundWhole (n.mul (.ofInt command.2))
    rwa [Decimal.toRat_mul, Decimal.toRat_ofInt, Int.cast_natCast] at hround
  · intro name hname
    refine ⟨_, evaluate_fromNow hname hx ha, ?_⟩
    have hround := Decimal.rounds_roundWhole (n.add (.ofInt w.now))
    rwa [Decimal.toRat_add, Decimal.toRat_ofInt] at hround

/-- Minus one and a half goes down to minus two, and so does that many seconds, which are
-0.025 minutes. -/
theorem rounds_spans_tie :
    let v : Decimal := ⟨-15, 1⟩
    let w := World.offline "test"
    let x : Expr := .atom "-0.025"
    Rounds (withPlaces 0) v.toRat (⟨-2, 0⟩ : Decimal).toRat ∧ v.scale ≤ 2 ∧ v.roundTo 2 = v ∧
      (Operand.number evaluate x w).1 = .ok (.number ⟨-25, 3⟩) ∧
      (∃ r, evaluate (.list [.atom "minutes", x]) w = (.ok (.number r), w) ∧ r.toRat = -2) ∧
      ∃ r, evaluate (.list [.atom "FROMNOW", x]) w = (.ok (.number r), w) ∧
        Rounds (Set.range ((↑) : ℤ → ℚ)) ((⟨-25, 3⟩ : Decimal).toRat + w.now) r.toRat := by
  intro v w x
  obtain ⟨hround, hspans⟩ := rounds_spans
  have hx : (Operand.number evaluate x w).1 = .ok (.number ⟨-25, 3⟩) :=
    Operand.number_atom_eq_ok_iff.mpr ⟨_, rfl, .inl (by decide)⟩
  obtain ⟨hspan, hnow⟩ := hspans x w _ _ hx rfl
  have hv : v.roundTo 0 = ⟨-2, 0⟩ := by decide
  refine ⟨hv ▸ (hround v 0).1, by decide, (hround v 2).2 (by decide), hx, ?_,
    hnow "FROMNOW" (by decide)⟩
  obtain ⟨r, heval, hr⟩ := hspan ("Minutes", 60) (.head _) "minutes" (by decide)
  refine ⟨r, heval, ?_⟩
  have hproduct : (⟨-25, 3⟩ : Decimal).toRat * (60 : Nat) = v.toRat := by
    norm_num [Decimal.toRat, v]
  have htwo := Decimal.rounds_roundWhole v
  rw [Decimal.roundWhole, hv] at htwo
  rw [hproduct] at hr
  have hzero : (0 : ℚ) ∈ Set.range ((↑) : ℤ → ℚ) := ⟨0, Int.cast_zero⟩
  rw [hr.unique hzero htwo]
  norm_num [Decimal.toRat]

end Scenario
