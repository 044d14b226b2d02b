import Scenario.Proofs.Action
import Scenario.Proofs.Vocabulary.Overloads

/-!
# Vocabularies within vocabularies

A command may take all of its operands as one list and return the value that this is read as. Then
a value is passed on as it is, and a failure becomes the cause of the command's own
(`evaluate_of_rest`). Such a command leads into another vocabulary when the list is evaluated there
(`Gateway`).

A `Route` goes through any number of such commands. By induction on it, to evaluate a list that
starts with the names on the way is to evaluate the rest of the list where the route ends, a
failure being wrapped once for each name (`Route.evaluate_route`).
-/

namespace Scenario

/-- A command whose only parameter takes the rest as a whole takes any number of operands, as one
list. -/
theorem Command.bind_rest {c : Command} {p : Param} (hparams : c.params = [p])
    (hrest : p.rest = true) (heach : p.each = false) (operands : List Expr) :
    c.bind operands = (fun x => [(p.name, .one x)]) <$> p.reading (.list operands) := by
  rw [bind_readRest hparams hrest, readRest, if_neg (by simp [heach]), Functor.map_map]

namespace Vocabulary

section Rest

variable {v : Vocabulary} {name : String} {c : Command} {p : Param}
  (hover : v.overloads name = [c]) (hparams : c.params = [p]) (hrest : p.rest = true)
  (heach : p.each = false) (hbody : ∀ x, c.body [(p.name, .one x)] = pure x)
include hover hparams hrest heach hbody

/-- If its body returns what came of that list, the command has the value that its parameter reads,
and a failure of the reading is the cause of its own. -/
theorem evaluate_of_rest (operands : List Expr) (w : World) :
    v.evaluate (.list (.atom name :: operands)) w =
      ((p.reading (.list operands) w).1.mapError
        (.rejected v.name name (.list (.atom name :: operands)) [c.signature]),
        (p.reading (.list operands) w).2) := by
  have hbind := congrFun (Command.bind_rest hparams hrest heach operands) w
  rw [Action.map_apply] at hbind
  rcases hread : p.reading (.list operands) w with ⟨f | x, w'⟩
  · rw [hread] at hbind
    exact evaluate_of_bind_error rfl hover hbind
  · rw [hread] at hbind
    rw [evaluate_of_bind_ok rfl hover hbind, hbody]
    rfl

theorem evaluate_of_rest_eq_ok_iff {operands : List Expr} {w w' : World} {x : Value} :
    v.evaluate (.list (.atom name :: operands)) w = (.ok x, w') ↔
      p.reading (.list operands) w = (.ok x, w') := by
  rw [evaluate_of_rest hover hparams hrest heach hbody]
  rcases p.reading (.list operands) w with ⟨f | y, w₁⟩
  · exact ⟨nofun, nofun⟩
  · rfl

end Rest

/-- The command `c`, the only one of its name, leads from one vocabulary into another: its one
parameter `p` hands all operands on as a list, and its body returns what came of them. -/
structure Gateway (outer inner : Vocabulary) (name : String) (c : Command) (p : Param) :
    Prop where
  overloads_eq : outer.overloads name = [c]
  params_eq : c.params = [p]
  rest_eq : p.rest = true
  each_eq : p.each = false
  reading_eq : p.reading = inner.evaluate
  body_eq : ∀ x, c.body [(p.name, .one x)] = pure x

namespace Gateway

variable {outer inner : Vocabulary} {name : String} {c : Command} {p : Param}

theorem evaluate_eq (g : Gateway outer inner name c p) (operands : List Expr) (w : World) :
    outer.evaluate (.list (.atom name :: operands)) w =
      ((inner.evaluate (.list operands) w).1.mapError
        (.rejected outer.name name (.list (.atom name :: operands)) [c.signature]),
        (inner.evaluate (.list operands) w).2) := by
  rw [evaluate_of_rest g.overloads_eq g.params_eq g.rest_eq g.each_eq g.body_eq, g.reading_eq]

end Gateway

/-- A way from one vocabulary into another, through a command of each vocabulary on the way. -/
inductive Route : Vocabulary → Vocabulary → Type where
  | here (v : Vocabulary) : Route v v
  | through {outer inner last : Vocabulary} (name : String) (c : Command) (p : Param)
      (g : Gateway outer inner name c p) (r : Route inner last) : Route outer last

namespace Route

/-- The items of a list that takes the route with some operands: the names on the way as they are
written, then the operands. -/
def items (operands : List Expr) : {outer last : Vocabulary} → Route outer last → List Expr
  | _, _, here _ => operands
  | _, _, through name _ _ _ r => .atom name :: r.items operands

/-- A failure at the end of the route, as it is reported at its start: each command on the way
rejects the list that starts with its name. -/
def wrap (operands : List Expr) (f : Failure) :
    {outer last : Vocabulary} → Route outer last → Failure
  | _, _, here _ => f
  | outer, _, through name c _ _ r =>
    .rejected outer.name name (.list (.atom name :: r.items operands)) [c.signature]
      (r.wrap operands f)

/-- To evaluate a list that takes a route is to evaluate its operands at the end of the route: the
world is left the same, a value is the same, and a failure is wrapped once by each command on the
way. -/
theorem evaluate_route {outer last : Vocabulary} (r : Route outer last) (operands : List Expr)
    (w : World) :
    outer.evaluate (.list (r.items operands)) w =
      ((last.evaluate (.list operands) w).1.mapError (r.wrap operands ·),
        (last.evaluate (.list operands) w).2) := by
  induction r with
  | here v =>
    rw [items]
    rcases v.evaluate (.list operands) w with ⟨f | x, w'⟩ <;> rfl
  | @through _ _ last name c p g r ih =>
    rw [items, g.evaluate_eq, ih]
    rcases last.evaluate (.list operands) w with ⟨f | x, w'⟩ <;> rfl

/-- Two commands on the way to one that puts a contract on record, and what they make of a list
that ends with their names. -/
theorem evaluate_route_deploy :
    let deploy : Command := {
      name := "Deploy"
      body := fun _ => do
        Action.modify (·.recordContract "0xab")
        return .address "0xab" }
    let enter (name : String) (inner : Vocabulary) : Command := {
      name
      params := [{ name := "res", reading := inner.evaluate, rest := true }]
      body := fun args => return (← .ofExcept (args.take "res")).1 }
    let w := World.offline "test"
    ∃ outer middle last, build "Last" [deploy] = .ok last ∧
      build "Middle" [enter "Go" last] = .ok middle ∧
      build "Outer" [enter "Into" middle] = .ok outer ∧
      outer.evaluate (.list [.atom "into", .atom "GO", .atom "Deploy"]) w =
        (.ok (.address "0xab"), w.recordContract "0xab") ∧
      outer.evaluate (.list [.atom "into", .atom "GO"]) w =
        (.error (.rejected "Outer" "into" (.list [.atom "into", .atom "GO"]) ["Into ...res"]
          (.rejected "Middle" "GO" (.list [.atom "GO"]) ["Go ...res"]
            (.headless "Last" (.list [])))), w) := by
  intro deploy enter w
  have henter (name n : String) (inner : Vocabulary) (hn : Text.isBlankText n = false) :
      fault? name [enter n inner] = none := by
    simp [fault?, Command.fault?, Command.paramFault?, Param.required, enter, hn]
  have hover (n : String) (c : Command) (h : c.isNamed n = true) :
      [c].filter (·.isNamed n) = [c] := List.filter_cons_of_pos h
  have hlast : fault? "Last" [deploy] = none := by decide
  let last : Vocabulary := ⟨"Last", [deploy], faultless_of_fault? hlast⟩
  have hmiddle := henter "Middle" "Go" last (by decide)
  let middle : Vocabulary := ⟨"Middle", [enter "Go" last], faultless_of_fault? hmiddle⟩
  have houter := henter "Outer" "Into" middle (by decide)
  let outer : Vocabulary := ⟨"Outer", [enter "Into" middle], faultless_of_fault? houter⟩
  have hgo : Gateway middle last "GO" (enter "Go" last) _ :=
    ⟨hover _ _ (show Text.sameFold "Go" "GO" = true by decide), rfl, rfl, rfl, rfl, fun _ => rfl⟩
  have hinto : Gateway outer middle "into" (enter "Into" middle) _ :=
    ⟨hover _ _ (show Text.sameFold "Into" "into" = true by decide), rfl, rfl, rfl, rfl,
      fun _ => rfl⟩
  let r : Route outer last := .through "into" _ _ hinto (.through "GO" _ _ hgo (.here last))
  have hlastOver : last.overloads "Deploy" = [deploy] := hover _ _ (by decide)
  have hdeploy : last.evaluate (.list [.atom "Deploy"]) w =
      (.ok (.address "0xab"), w.recordContract "0xab") :=
    evaluate_of_bind_ok rfl hlastOver rfl
  have hvalue := evaluate_route r [.atom "Deploy"] w
  rw [hdeploy] at hvalue
  exact ⟨outer, middle, last, build_of_fault? hlast, build_of_fault? hmiddle,
    build_of_fault? houter, hvalue, evaluate_route r [] w⟩

end Route

end Vocabulary

end Scenario
