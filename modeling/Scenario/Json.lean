/-!
# JSON values

A number is kept as a whole number if it is written as one, and by its literal
otherwise. The members of an object keep their order and may repeat a name. Text with an
escape for half of a surrogate pair is well formed but stands for no text; such a string,
and an object with such a member name, is `garbled`.
-/

namespace Scenario

/-- A JSON value. -/
inductive Json where
  | null
  | bool (value : Bool)
  | int (value : Int)
  /-- A number with a fraction or an exponent, or a negative zero, by its literal. -/
  | real (literal : String)
  | text (value : String)
  | array (items : List Json)
  | object (members : List (String × Json))
  /-- Well formed, but with an escape that stands for no character. -/
  | garbled
deriving Inhabited, Repr

namespace Json

/-- The value of the last member with a name, if the value is an object that has one. -/
def member? (name : String) : Json → Option Json
  | object ms => (ms.reverse.find? (·.1 == name)).map (·.2)
  | _ => none

end Json

end Scenario
