import Scenario.Json.Reader
import Scenario.Settings.Decoding
import Scenario.Toml.Reader

/-!
# Settings from text and from files

The name of a file decides its format: JSON if its extension is `json`, TOML otherwise.
-/

namespace Scenario.Settings

/-- The settings that a text describes. Only TOML passes over surplus items of a record that is
written as an array. -/
def ofText (format : Format) (src : String) : Except ConfigFault Settings :=
  let document? := match format with
    | .json => Json.read? src
    | .toml => Toml.read? src
  match document? with
  | none => .error (.malformed format)
  | some v =>
    match ofJson? (format == .toml) v with
    | some s => .ok s
    | none => .error (.misshapen format)

/-- The parts of a path between slashes. -/
def pathParts : List Char → List (List Char)
  | [] => [[]]
  | c :: r =>
    if c = '/' then [] :: pathParts r
    else
      match pathParts r with
      | [] => [[c]]
      | p :: ps => (c :: p) :: ps

/-- The file name that a path ends in, if it names anything but a directory above. -/
def fileName? (path : String) : Option (List Char) :=
  ((pathParts path.toList).filter fun p => p != [] && p != ['.']).getLast?.filter (· != ['.', '.'])

/-- What follows the last dot of a file name, unless that dot is its first character. -/
def extension? (path : String) : Option String := do
  let name ← fileName? path
  let after := name.reverse.takeWhile (· != '.')
  let before := name.reverse.drop (after.length + 1)
  if before.isEmpty then none else some (String.ofList after.reverse)

/-- The format of a file. -/
def formatOf (path : String) : Format :=
  if extension? path = some "json" then .json else .toml

/-- The settings in a file, given what reading it yields: its text, or why it cannot be read. -/
def ofFile (path : String) (content : Except String String) : Except ConfigFault Settings :=
  match content with
  | .error reason => .error (.unreadable path reason)
  | .ok src => ofText (formatOf path) src

end Scenario.Settings
