import Scenario.Evaluate
import Scenario.Proofs.Evaluate.Coupling
import Scenario.Proofs.Vocabulary.Overloads

/-!
# What a rejection gives as its cause

A command turns operands down for one of two reasons. If their number does not fit it, that number
is the reason and none of them is read. If it does fit, a parameter has failed to read its share
after those before it have read theirs: `Command.FailsToRead`, and there is no other reason
(`Command.bind_eq_error_iff`).

Where all overloads turn the operands down, each for a reason of its own, the cause that is given is
that of the last one of the table (`Rejections.causedByLast`). So it tells of a failed reading
exactly if the number of operands fits the last overload (`cause_of_rejected`); what an earlier one
failed to read is not told, if the last one does not fit (`cause_not_read`).
-/

namespace Scenario

variable {operands : List Expr} {w w' : World} {f : Failure}

/-! ## One command -/

namespace Command

/-- Operands whose number fits a command and of which one parameter fails to read its share, with
the failure `f`, after those before it have read theirs. -/
structure FailsToRead (c : Command) (operands : List Expr) (w : World) (f : Failure)
    (w' : World) : Prop where
  fits : c.arity.fits operands.length = true
  reading : ∃ ps p ps' ss s ss' as w₁, c.params = ps ++ p :: ps' ∧ ps.length = ss.length ∧
    Distributed c.params operands (ss ++ s :: ss') ∧ readShares ps ss w = (.ok as, w₁) ∧
    s.read p w₁ = (.error f, w')

/-- Shares are read up to the first that fails. -/
theorem readShares_eq_error_iff {qs : List Param} {ts : List Share} :
    readShares qs ts w = (.error f, w') ↔
      ∃ ps p ps' ss s ss' as w₁, qs = ps ++ p :: ps' ∧ ps.length = ss.length ∧
        ts = ss ++ s :: ss' ∧ readShares ps ss w = (.ok as, w₁) ∧ s.read p w₁ = (.error f, w') := by
  rw [readShares, Action.mapM_eq_error_iff]
  constructor
  · rintro ⟨before, ⟨p, s⟩, after, as, w₁, hzip, hbefore, hs⟩
    obtain ⟨ps, _, ss, _, hlen, rfl, rfl, rfl, hrest⟩ := List.zip_eq_append_iff.mp hzip
    obtain ⟨ps', ss', rfl, rfl, -⟩ := List.zip_eq_cons_iff.mp hrest.symm
    exact ⟨ps, p, ps', ss, s, ss', as, w₁, rfl, hlen, rfl, hbefore, hs⟩
  · rintro ⟨ps, p, ps', ss, s, ss', as, w₁, rfl, hlen, rfl, hbefore, hs⟩
    exact ⟨ps.zip ss, (p, s), ps'.zip ss', as, w₁, List.zip_append hlen, hbefore, hs⟩

/-- A number of operands that fits is turned down for a failed reading only. -/
theorem bind_eq_error_iff {c : Command} (hc : c.fault? = none)
    (hfit : c.arity.fits operands.length = true) :
    c.bind operands w = (.error f, w') ↔ c.FailsToRead operands w f w' := by
  constructor
  · intro h
    obtain ⟨ss, hss⟩ := exists_distributed_of_fits hc hfit
    rw [hss.bind_eq hfit, Action.map_eq_error_iff, readShares_eq_error_iff] at h
    obtain ⟨ps, p, ps', ss, s, ss', as, w₁, hps, hlen, rfl, hbefore, hs⟩ := h
    exact ⟨hfit, ps, p, ps', ss, s, ss', as, w₁, hps, hlen, hss, hbefore, hs⟩
  · rintro ⟨-, ps, p, ps', ss, s, ss', as, w₁, hps, hlen, hss, hbefore, hs⟩
    rw [hss.bind_eq hfit, Action.map_eq_error_iff, readShares_eq_error_iff]
    exact ⟨ps, p, ps', ss, s, ss', as, w₁, hps, hlen, rfl, hbefore, hs⟩

end Command

namespace Vocabulary

variable {v : Vocabulary} {cs : List Command} {fs : List Failure}

/-! ## A row of overloads -/

/-- `f` is the reason of the last of some overloads, in the world in which those before it have left
it: a failed reading if the number of operands fits it, and that number if it does not. -/
def CausedByLast (operands : List Expr) (cs : List Command) (w : World) (f : Failure) (w' : World) :
    Prop :=
  ∃ before last fs w₁, cs = before ++ [last] ∧ Rejections operands before w fs w₁ ∧
    (last.arity.fits operands.length = true → last.FailsToRead operands w₁ f w') ∧
    (last.arity.fits operands.length = false →
      f = .arity last.arity operands.length ∧ w' = w₁)

/-- A row that turns the operands down ends with a command that does so in the world that those
before it have left. -/
theorem exists_last_of_rejections (h : Rejections operands cs w fs w') (hcs : cs ≠ []) :
    ∃ before last fs' w₁ f, cs = before ++ [last] ∧ Rejections operands before w fs' w₁ ∧
      last.bind operands w₁ = (.error f, w') ∧ fs.getLast? = some f := by
  induction h with
  | nil => exact absurd rfl hcs
  | @cons c cs w w₁ w' f fs hc hs ih =>
    cases hs with
    | nil => exact ⟨[], c, [], w, f, rfl, .nil w, hc, rfl⟩
    | cons hc' hs' =>
      obtain ⟨before, last, fs', w₂, g, heq, hbefore, hlast, hg⟩ := ih (by simp)
      refine ⟨c :: before, last, f :: fs', w₂, g, by rw [heq]; rfl, .cons hc hbefore, hlast, ?_⟩
      rw [List.getLast?_cons, hg]
      rfl

theorem Rejections.causedByLast (h : Rejections operands cs w fs w')
    (hfault : ∀ c ∈ cs, c.fault? = none) (hf : fs.getLast? = some f) :
    CausedByLast operands cs w f w' := by
  have hcs : cs ≠ [] := by
    rintro rfl
    cases h
    cases hf
  obtain ⟨before, last, fs', w₁, g, heq, hbefore, hlast, hg⟩ := exists_last_of_rejections h hcs
  obtain rfl : g = f := Option.some.inj (hg.symm.trans hf)
  refine ⟨before, last, fs', w₁, heq, hbefore, fun hfit => ?_, fun hfit => ?_⟩
  · exact (Command.bind_eq_error_iff (hfault last (by simp [heq])) hfit).mp hlast
  · rw [bind_apply_of_not_fits hfit] at hlast
    cases hlast
    exact ⟨rfl, rfl⟩

/-! ## Evaluation -/

/-- If an expression is rejected, the selected overload has passed on a rejection of its own, or
the overloads of the expression's head have all turned its operands down and the cause is that of
the last one: a failed reading of it if it fits the number of operands, and that number if not. -/
theorem cause_of_rejected {e e' : Expr} {voc n : String} {signatures : List String}
    {cause : Failure}
    (h : v.evaluate e w = (.error (.rejected voc n e' signatures cause), w')) :
    ∃ name operands, split? e = some (name, operands) ∧
      ((∃ c args w₁, Selects operands (v.overloads name) w c args w₁ ∧
          c.body args w₁ = (.error (.rejected voc n e' signatures cause), w')) ∨
        (voc = v.name ∧ n = name ∧ e' = e ∧
            signatures = (v.overloads name).map Command.signature) ∧
          CausedByLast operands (v.overloads name) w cause w') := by
  cases he : split? e with
  | none =>
    simp only [evaluate, he] at h
    cases h
  | some call =>
    obtain ⟨name, operands⟩ := call
    refine ⟨name, operands, rfl, ?_⟩
    rcases selects_or_rejections operands (v.overloads name) w with
      ⟨c, args, w₁, hsel⟩ | ⟨fs, w₁, hrej⟩
    · rw [evaluate_of_selects he hsel] at h
      exact .inl ⟨c, args, w₁, hsel, h⟩
    · have hover : v.overloads name ≠ [] := by
        intro hnil
        simp only [evaluate, he, hnil] at h
        cases h
      have hfault : ∀ c ∈ v.overloads name, c.fault? = none := fun c hc =>
        v.faultless c (List.mem_filter.mp hc).1
      obtain ⟨f, hf, heq⟩ := evaluate_of_rejections he hover hrej
      have hcause := hrej.causedByLast hfault hf
      rw [heq] at h
      cases h
      exact .inr ⟨⟨rfl, rfl, rfl, rfl⟩, hcause⟩

/-! ## Two overloads of one name -/

/-- A command that takes a number for each of some parameters. -/
def pickNumbers (params : List String) : Command where
  name := "Pick"
  params := params.map fun p => { name := p, reading := Operand.number Scenario.evaluate }
  body _ := pure .nothing

theorem number_abc (w : World) : Operand.number Scenario.evaluate (.atom "abc") w =
    (.error (.literal .number "abc" (.number .notNumber)), w) := by
  have hover : Dialect.core.commands.overloads "abc" = [] := by
    simp only [overloads, Dialect.commands, Dialect.vocabulary, Core.vocabulary, Core.commands,
      Command.isNamed, Core.constant, Core.deferred, Core.span]
    decide
  have heval : Scenario.evaluate (.atom "abc") w = (.error (.unknownCommand "Core" "abc"), w) := by
    rw [Scenario.evaluate, Dialect.evaluate_eq]
    simp only [evaluate, split?, hover]
    rfl
  have hliteral : Decimal.readNumber "abc" = .error .notNumber := by decide
  simp only [Operand.number, Operand.readAs, Operand.numberLiteral, Action.bind_apply, Action.world,
    hliteral, Action.attempt, heval]
  rfl

theorem pickNumbers_bind_abc (w : World) : (pickNumbers ["x"]).bind [.atom "abc"] w =
    (.error (.literal .number "abc" (.number .notNumber)), w) := by
  have hparams : (pickNumbers ["x"]).params =
      [{ name := "x", reading := Operand.number Scenario.evaluate }] := rfl
  rw [Command.bind_one hparams rfl rfl]
  simp only [Command.readOne, Bool.false_eq_true, if_false, Action.map_apply, number_abc]

theorem pickNumbers_fault? : (pickNumbers ["x"]).fault? = none ∧
    (pickNumbers ["x", "y"]).fault? = none := by
  have hname : Text.isBlankText "Pick" = false := by decide
  simp [Command.fault?, Command.paramFault?, Param.required, pickNumbers, hname]

theorem exists_pick {ps qs : List String} (hps : (pickNumbers ps).fault? = none)
    (hqs : (pickNumbers qs).fault? = none) :
    ∃ v, build "Test" [pickNumbers ps, pickNumbers qs] = .ok v ∧ v.name = "Test" ∧
      v.overloads "Pick" = [pickNumbers ps, pickNumbers qs] := by
  have hfault : fault? "Test" [pickNumbers ps, pickNumbers qs] = none := by
    simp only [fault?, hps, hqs]
  have hnamed : Text.sameFold "Pick" "Pick" = true := by decide
  refine ⟨_, build_of_fault? hfault, rfl, ?_⟩
  simp [overloads, Command.isNamed, pickNumbers, hnamed]

/-- An operand that the last overload fails to read, after one that takes two. -/
theorem cause_of_rejected_last :
    let w := World.offline "test"
    let e : Expr := .list [.atom "Pick", .atom "abc"]
    let cause : Failure := .literal .number "abc" (.number .notNumber)
    ∃ v, build "Test" [pickNumbers ["x", "y"], pickNumbers ["x"]] = .ok v ∧
      v.evaluate e w = (.error (.rejected "Test" "Pick" e ["Pick x y", "Pick x"] cause), w) ∧
      CausedByLast [.atom "abc"] [pickNumbers ["x", "y"], pickNumbers ["x"]] w cause w := by
  intro w e cause
  obtain ⟨v, hbuild, hname, hover⟩ := exists_pick pickNumbers_fault?.2 pickNumbers_fault?.1
  have hrej : Rejections [.atom "abc"] (v.overloads "Pick") w [.arity ⟨2, some 2⟩ 1, cause] w := by
    rw [hover]
    exact .cons rfl (.cons (pickNumbers_bind_abc w) (.nil w))
  obtain ⟨f, hf, heval⟩ := evaluate_of_rejections (v := v) (e := e) rfl (by simp [hover]) hrej
  obtain rfl : cause = f := Option.some.inj hf
  rw [hname, hover] at heval
  refine ⟨v, hbuild, heval, ?_⟩
  obtain ⟨name, operands, hsplit, hcause⟩ := cause_of_rejected heval
  cases hsplit
  rcases hcause with ⟨c, args, w₁, hsel, -⟩ | ⟨-, hlast⟩
  · exact absurd hrej hsel.not_rejections
  · rwa [hover] at hlast

/-- The first overload fits the number of operands and fails to read the one there is; the second
does not fit, and that is the cause that is given: no overload has failed to read for it. -/
theorem cause_not_read :
    let w := World.offline "test"
    let e : Expr := .list [.atom "Pick", .atom "abc"]
    let unread : Failure := .literal .number "abc" (.number .notNumber)
    let cause : Failure := .arity ⟨2, some 2⟩ 1
    ∃ v, build "Test" [pickNumbers ["x"], pickNumbers ["x", "y"]] = .ok v ∧
      v.evaluate e w = (.error (.rejected "Test" "Pick" e ["Pick x", "Pick x y"] cause), w) ∧
      (∃ c ∈ v.overloads "Pick", c.FailsToRead [.atom "abc"] w unread w) ∧
      ∀ c ∈ v.overloads "Pick", ∀ w₁ w₂, ¬c.FailsToRead [.atom "abc"] w₁ cause w₂ := by
  intro w e unread cause
  obtain ⟨v, hbuild, hname, hover⟩ := exists_pick pickNumbers_fault?.1 pickNumbers_fault?.2
  have hread (w w' : World) (f : Failure) :
      (pickNumbers ["x"]).bind [.atom "abc"] w = (.error f, w') ↔
        (pickNumbers ["x"]).FailsToRead [.atom "abc"] w f w' :=
    Command.bind_eq_error_iff pickNumbers_fault?.1 (by decide)
  have hrej : Rejections [.atom "abc"] (v.overloads "Pick") w [unread, cause] w := by
    rw [hover]
    exact .cons (pickNumbers_bind_abc w) (.cons rfl (.nil w))
  obtain ⟨f, hf, heval⟩ := evaluate_of_rejections (v := v) (e := e) rfl (by simp [hover]) hrej
  obtain rfl : cause = f := Option.some.inj hf
  rw [hname, hover] at heval
  refine ⟨v, hbuild, heval, ?_, ?_⟩
  · exact ⟨_, by simp [hover], (hread w w unread).mp (pickNumbers_bind_abc w)⟩
  · rw [hover, List.forall_mem_cons, List.forall_mem_singleton]
    refine ⟨fun w₁ w₂ hfails => ?_, fun w₁ w₂ hfails => absurd hfails.fits (by decide)⟩
    have hbind := (hread w₁ w₂ cause).mpr hfails
    rw [pickNumbers_bind_abc] at hbind
    exact absurd hbind (by simp [cause])

end Vocabulary

end Scenario
