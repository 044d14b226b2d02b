/-!
# Faults of a vocabulary

A command whose name is blank, or whose parameters could not be told apart or reached, is
not taken into a vocabulary.
-/

namespace Scenario

/-- What is wrong with a command. -/
inductive CommandFault where
  | blankName
  | repeatedParam (param : String)
  | restNotLast (param : String)
  | restWithDefault (param : String)
  | requiredAfterDefault (param : String)
deriving DecidableEq, Inhabited, Repr

/-- A faulty command and the vocabulary it was meant for. -/
structure VocabularyFault where
  vocabulary : String
  command : String
  fault : CommandFault
deriving DecidableEq, Inhabited, Repr

/-- The wording of a fault. -/
def VocabularyFault.message (f : VocabularyFault) : String :=
  let about := fun param text =>
    f.vocabulary ++ " " ++ f.command ++ ": " ++ text ++ " `" ++ param ++ "`"
  match f.fault with
  | .blankName => f.vocabulary ++ ": command name must not be empty"
  | .repeatedParam p => about p "duplicate argument"
  | .restNotLast p => about p "variadic argument" ++ " must be the last argument"
  | .restWithDefault p => about p "variadic argument" ++ " cannot have a default"
  | .requiredAfterDefault p => about p "required argument" ++ " follows a defaulted argument"

end Scenario
