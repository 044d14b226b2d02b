import Scenario.Command

/-!
# Vocabularies

A vocabulary is a named table of commands without faults. Several commands may share a
name; they are overloads, tried in the order of the table.

To evaluate an expression is to look up its head and to bind its operands. The first
overload that takes the operands runs, and its result or failure is that of the
expression; if none takes them, the failure of the last one says why.
-/

namespace Scenario

/-- A named table of commands, none of which has a fault. -/
structure Vocabulary where
  name : String
  commands : List Command
  faultless : ∀ c ∈ commands, c.fault? = none

namespace Vocabulary

/-- The first fault of a row of commands. -/
def fault? (name : String) : List Command → Option VocabularyFault
  | [] => none
  | c :: cs =>
    match c.fault? with
    | some f => some ⟨name, c.name, f⟩
    | none => fault? name cs

theorem faultless_of_fault? {name : String} {cs : List Command} (h : fault? name cs = none) :
    ∀ c ∈ cs, c.fault? = none := by
  induction cs with
  | nil => simp
  | cons c cs ih =>
    unfold fault? at h
    split at h
    · cases h
    · rename_i hc
      intro c' hc'
      rcases List.mem_cons.mp hc' with rfl | hm
      · exact hc
      · exact ih h c' hm

/-- The vocabulary of a row of commands, or the first fault among them. -/
def build (name : String) (commands : List Command) : Except VocabularyFault Vocabulary :=
  match h : fault? name commands with
  | some f => .error f
  | none => .ok ⟨name, commands, faultless_of_fault? h⟩

/-- The overloads of a name, in the order of the table. -/
def overloads (v : Vocabulary) (name : String) : List Command :=
  v.commands.filter (·.isNamed name)

/-- The documentation. -/
def manual (v : Vocabulary) : Manual :=
  .mk v.name (v.commands.map Command.manualEntry)

/-- The name and the operands of a command expression; a lone atom has no operands. -/
def split? : Expr → Option (String × List Expr)
  | .atom name => some (name, [])
  | .list (.atom name :: operands) => some (name, operands)
  | .list _ => none

/-- Binds operands to the first of some overloads that takes them: that overload and its
arguments, or the failure of the last one. -/
def bindFirst (operands : List Expr) (c : Command) (others : List Command) :
    Action (Except Failure (Command × Arguments)) := do
  match ← (c.bind operands).attempt with
  | .ok args => return .ok (c, args)
  | .error e =>
    match others with
    | [] => return .error e
    | c' :: others' => bindFirst operands c' others'

/-- Evaluates an expression as a command of the vocabulary. -/
def evaluate (v : Vocabulary) (e : Expr) : Action Value :=
  match split? e with
  | none => .fail (.headless v.name e)
  | some (name, operands) =>
    match v.overloads name with
    | [] => .fail (.unknownCommand v.name name)
    | c :: others => do
      match ← bindFirst operands c others with
      | .ok (chosen, args) => chosen.body args
      | .error cause =>
        .fail (.rejected v.name name e ((c :: others).map Command.signature) cause)

end Vocabulary

end Scenario
