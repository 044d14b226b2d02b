import Scenario.Evaluate
import Scenario.Proofs.Command.Coupling
import Scenario.Proofs.Vocabulary.Overloads

/-!
# What rejected overloads leave behind

An overload that turns the operands down may have read some of them by then, and what these readings
did to the world stays. The overload that is chosen starts in the world that is left, and reads each
operand once, in order (`evaluate_after_rejections`); but the operands were read before, so the
first of them can see what a later one did (`evaluate_not_alone`).

Only readings leave something behind: an overload that does not fit reads nothing, and one whose
readings keep the world keeps it, too (`Command.bind_world`).
-/

namespace Scenario

/-! ## Binding that keeps the world -/

/-- A command that reads nothing, or whose readings keep the world, keeps it whether or not it takes
the operands. -/
theorem Command.bind_world {c : Command} {operands : List Expr} {w : World}
    (h : c.arity.fits operands.length = true → ∀ p ∈ c.params, ∀ x, (p.reading x w).2 = w) :
    (c.bind operands w).2 = w := by
  cases hfit : c.arity.fits operands.length with
  | false =>
    rw [bind_of_not_fits hfit]
    rfl
  | true =>
    have hps : List.Forall₂ (Param.Coupled (.inWorld w) Eq) c.params c.params :=
      List.forall₂_same.mpr fun p hp =>
        .of_reading fun x => .of_world_eq (h hfit p hp x)
    rw [bind, if_pos hfit]
    exact (bindParams_coupled hps (List.forall₂_refl operands) []).world_eq

namespace Vocabulary

variable {v : Vocabulary} {e : Expr} {name : String} {operands : List Expr}
variable {before after : List Command} {c : Command} {args : Arguments} {fs : List Failure}
variable {w w₁ w₂ : World}

/-- Whether the readings of some commands keep the world, as far as they are tried at all. -/
def Quiet (operands : List Expr) (cs : List Command) (w : World) : Prop :=
  ∀ c ∈ cs, c.arity.fits operands.length = true → ∀ p ∈ c.params, ∀ x, (p.reading x w).2 = w

theorem Rejections.world_eq (hrej : Rejections operands before w fs w₁)
    (hquiet : Quiet operands before w) : w₁ = w := by
  induction hrej with
  | nil => rfl
  | cons hc _ ih =>
    rw [Quiet, List.forall_mem_cons] at hquiet
    have hworld := Command.bind_world hquiet.1
    rw [hc] at hworld
    subst hworld
    exact ih hquiet.2

/-- A command that takes the operands reads each of them once, in order. -/
theorem exists_shares_of_bind_ok (hc : c.fault? = none)
    (hok : c.bind operands w₁ = (.ok args, w₂)) :
    ∃ ss, ss.flatMap Share.operands = operands ∧ c.bind operands =
      (fun as => Entries.ofList ((c.params.map Param.name).zip as)) <$>
        Command.readShares c.params ss := by
  have hfit : c.arity.fits operands.length = true := by
    by_contra hfit
    rw [bind_apply_of_not_fits (by simpa using hfit)] at hok
    cases hok
  obtain ⟨ss, hss⟩ := Command.exists_distributed_of_fits hc hfit
  exact ⟨ss, hss.flatMap_operands, hss.bind_eq hfit⟩

/-- The overload that takes the operands reads each of them once and in order, from the world that
the overloads before it have left. If their readings keep the world, it is as if they had not been
tried. -/
theorem evaluate_after_rejections (he : split? e = some (name, operands))
    (hover : v.overloads name = before ++ c :: after)
    (hrej : Rejections operands before w fs w₁) (hok : c.bind operands w₁ = (.ok args, w₂)) :
    v.evaluate e w = (c.bind operands >>= c.body) w₁ ∧
    (∃ ss, ss.flatMap Share.operands = operands ∧ c.bind operands =
      (fun as => Entries.ofList ((c.params.map Param.name).zip as)) <$>
        Command.readShares c.params ss) ∧
    (Quiet operands before w → v.evaluate e w = (c.bind operands >>= c.body) w) := by
  have hmem : c ∈ v.overloads name := by simp [hover]
  have hrun : v.evaluate e w = (c.bind operands >>= c.body) w₁ := by
    rw [evaluate_of_selects he ⟨before, after, fs, w₁, hover, hrej, hok⟩, Action.bind_apply, hok]
  refine ⟨hrun, exists_shares_of_bind_ok (v.faultless c (List.mem_filter.mp hmem).1) hok,
    fun hquiet => ?_⟩
  rw [hrun, hrej.world_eq hquiet]

/-- An overload that turns the operand down at once, before one that puts it on record. -/
theorem evaluate_after_rejections_quiet :
    let refuse : Reading := fun _ => .fail (.precondition .lastInvocation)
    let record : Reading := fun e => do
      Action.modify (·.recordContract e.text)
      return .text e.text
    let pick (reading : Reading) : Command := {
      name := "Pick", params := [{ name := "x", reading }], body := fun _ => pure .nothing }
    let e : Expr := .list [.atom "Pick", .atom "token"]
    let w := World.offline "test"
    ∃ v, build "Test" [pick refuse, pick record] = .ok v ∧
      v.evaluate e w = ((pick record).bind [.atom "token"] >>= (pick record).body) w ∧
      v.evaluate e w = (.ok .nothing, w.recordContract "token") := by
  intro refuse record pick e w
  have hfault : fault? "Test" [pick refuse, pick record] = none := by decide
  let v : Vocabulary := ⟨"Test", [pick refuse, pick record], faultless_of_fault? hfault⟩
  have hnamed : [pick refuse, pick record].all (·.isNamed "Pick") = true := by decide
  have hover : v.overloads "Pick" = [pick refuse] ++ pick record :: [] :=
    List.filter_eq_self.mpr (List.all_eq_true.mp hnamed)
  have hrej : Rejections [.atom "token"] [pick refuse] w [.precondition .lastInvocation] w :=
    .cons rfl (.nil w)
  have hquiet : Quiet [.atom "token"] [pick refuse] w := by
    simp [Quiet, pick, refuse, Action.fail]
  have he : split? e = some ("Pick", [.atom "token"]) := rfl
  have hrun := (evaluate_after_rejections he hover hrej rfl).2.2 hquiet
  exact ⟨v, build_of_fault? hfault, hrun, hrun⟩

/-- A rejected overload leaves a trace. The first overload reads `Seen`, deploys the contract and
turns its last operand down; the second reads `Seen` again and finds the contract that a later
operand has deployed. On its own, it would find none. -/
theorem evaluate_not_alone :
    let deploy : Command := {
      name := "Deploy"
      params := [{ name := "x", reading := Operand.text Scenario.evaluate }]
      body := fun args => do
        let a ← .ofExcept (args.text "x")
        Action.modify (·.recordContract a)
        return .address a }
    let seen : Command := {
      name := "Seen"
      body := fun _ => return .address ((← Action.world).lastContract.getD "none") }
    let pick (inner : Vocabulary) (last : Reading) : Command := {
      name := "Pick"
      params := [{ name := "x", reading := inner.evaluate },
        { name := "y", reading := inner.evaluate }, { name := "z", reading := last }]
      body := fun args => .ofExcept (args.value "x") }
    let echo : Reading := fun e => pure (.text e.text)
    let operands : List Expr := [.atom "Seen", .list [.atom "Deploy", .atom "token"], .atom "nope"]
    let w := World.offline "test"
    ∃ inner v, build "Inner" [deploy, seen] = .ok inner ∧
      build "Test" [pick inner (Operand.map Scenario.evaluate), pick inner echo] = .ok v ∧
      (∃ args w', Selects operands (v.overloads "Pick") w (pick inner echo) args w') ∧
      v.evaluate (.list (.atom "Pick" :: operands)) w =
        (.ok (.address "token"), w.recordContract "token") ∧
      ((pick inner echo).bind operands >>= (pick inner echo).body) w =
        (.ok (.address "none"), w.recordContract "token") := by
  intro deploy seen pick echo operands w
  have hinner : fault? "Inner" [deploy, seen] = none := by decide
  let inner : Vocabulary := ⟨"Inner", [deploy, seen], faultless_of_fault? hinner⟩
  have hpick (last : Reading) : (pick inner last).fault? = none := by
    have hname : Text.isBlankText "Pick" = false := by decide
    simp [Command.fault?, Command.paramFault?, Param.required, pick, hname]
  have hpicks : fault? "Test" [pick inner (Operand.map Scenario.evaluate), pick inner echo] =
      none := by simp only [fault?, hpick]
  let v : Vocabulary := ⟨"Test", _, faultless_of_fault? hpicks⟩
  have hover : v.overloads "Pick" =
      [pick inner (Operand.map Scenario.evaluate)] ++ pick inner echo :: [] := by
    have hnamed : Text.sameFold "Pick" "Pick" = true := by decide
    simp [overloads, v, Command.isNamed, pick, hnamed]
  have hnamed : deploy.isNamed "Deploy" = true ∧ seen.isNamed "Deploy" = false ∧
      deploy.isNamed "Seen" = false ∧ seen.isNamed "Seen" = true := by decide
  have hdeploys : inner.overloads "Deploy" = [deploy] := by simp [overloads, inner, hnamed]
  have hseens : inner.overloads "Seen" = [seen] := by simp [overloads, inner, hnamed]
  have hbound (w : World) : deploy.bind [.atom "token"] w =
      (.ok [("x", .one (.text "token"))], w) := rfl
  have hdeploy (w : World) : inner.evaluate (.list [.atom "Deploy", .atom "token"]) w =
      (.ok (.address "token"), w.recordContract "token") :=
    evaluate_of_bind_ok rfl hdeploys (hbound w)
  have hseen (w : World) : inner.evaluate (.atom "Seen") w =
      (.ok (.address (w.lastContract.getD "none")), w) := evaluate_of_bind_ok rfl hseens rfl
  -- The first operand sees the world as it was, the last one that with the contract.
  have hbind (last : Reading) (w : World) : (pick inner last).bind operands w =
      ((fun z => [("x", .one (.address (w.lastContract.getD "none"))),
        ("y", .one (.address "token")), ("z", .one z)]) <$> last (.atom "nope"))
          (w.recordContract "token") := by
    have hfit : (pick inner last).arity.fits operands.length = true := rfl
    rw [Command.bind, if_pos hfit]
    simp only [pick, operands, Command.bindParams, Command.readOne, Bool.false_eq_true, if_false,
      Action.bind_apply, Action.map_apply, hseen, hdeploy]
    rcases last (.atom "nope") (w.recordContract "token") with ⟨f | z, w'⟩ <;> rfl
  have hrej : Rejections operands [pick inner (Operand.map Scenario.evaluate)] w
      [.kindMismatch .map (.expr (.atom "nope")) (.expr (.atom "nope"))]
      (w.recordContract "token") := .cons (hbind _ w) (.nil _)
  have hsel : Selects operands (v.overloads "Pick") w (pick inner echo) _ _ :=
    ⟨_, _, _, _, hover, hrej, hbind echo (w.recordContract "token")⟩
  refine ⟨inner, v, build_of_fault? hinner, build_of_fault? hpicks, ⟨_, _, hsel⟩, ?_, ?_⟩
  · rw [evaluate_of_selects rfl hsel]
    rfl
  · rw [Action.bind_apply, hbind]
    rfl

end Vocabulary

end Scenario
