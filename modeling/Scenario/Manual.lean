import Scenario.Text.Fold
import Scenario.Vocabulary.Fault

/-!
# Manuals

The documentation of a vocabulary, as Markdown: a heading, and one section for each
command with its signature and its description. A command that leads into another
vocabulary has the manual of that vocabulary in its section, one heading level deeper;
a vocabulary that could not be built has its fault there instead.
-/

namespace Scenario

mutual

/-- The documentation of a vocabulary. -/
inductive Manual where
  | mk (title : String) (entries : List ManualEntry)

/-- The documentation of a command. -/
inductive ManualEntry where
  | mk (name signature description : String) (nested : Option (Except VocabularyFault Manual))

end

/-- The name of the documented command. -/
def ManualEntry.name : ManualEntry → String
  | mk name _ _ _ => name

/-- The manual of the vocabulary that the command leads into. -/
def ManualEntry.nested : ManualEntry → Option (Except VocabularyFault Manual)
  | mk _ _ _ nested => nested

namespace Manual

/-- The name of the documented vocabulary. -/
def title : Manual → String
  | mk title _ => title

/-- The documented commands. -/
def entries : Manual → List ManualEntry
  | mk _ entries => entries

/-- A heading. -/
def heading (level : Nat) (s : String) : String :=
  String.ofList (List.replicate level '#') ++ " " ++ s ++ "\n\n"

mutual

/-- A manual whose commands have headings of the given level. -/
def render (level : Nat) : Manual → Except VocabularyFault String
  | mk title entries => do
    return heading (level - 1) title ++ (← renderEntries level entries)

/-- The sections of a row of commands. -/
def renderEntries (level : Nat) : List ManualEntry → Except VocabularyFault String
  | [] => .ok ""
  | e :: es => do
    let s ← renderEntry level e
    return s ++ (← renderEntries level es)

/-- The section of a command. -/
def renderEntry (level : Nat) : ManualEntry → Except VocabularyFault String
  | .mk _ signature description nested => do
    let own := heading level ("`" ++ signature ++ "`")
      ++ (if description = "" then "" else description ++ "\n\n")
    match nested with
    | none => return own
    | some (.error f) => throw f
    | some (.ok m) => return own ++ (← render (level + 1) m)

end

/-- The heading level of commands. -/
def commandLevel : Nat := 2

/-- The whole manual. -/
def text (m : Manual) : Except VocabularyFault String :=
  m.render commandLevel

/-- The entries of the commands with a name. -/
def named (m : Manual) (name : String) : List ManualEntry :=
  m.entries.filter fun e => Text.sameFold e.name name

/-- The sections of the commands with a name, if there is any. -/
def textFor (m : Manual) (name : String) : Except VocabularyFault (Option String) :=
  match m.named name with
  | [] => .ok none
  | es => (renderEntries commandLevel es).map some

/-- The manual that the first command with a name leads into, if one of them leads into any. -/
def nested? (m : Manual) (name : String) : Option (Except VocabularyFault Manual) :=
  (m.named name).findSome? ManualEntry.nested

end Manual

end Scenario
