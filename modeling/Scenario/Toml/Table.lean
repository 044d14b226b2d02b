import Scenario.Json

/-!
# Tables of TOML

A table under construction remembers how it came about. A table that was only passed
through on the way to another one may still be opened by a header, once; a table that
dotted keys made may be extended by dotted keys, and by those alone; nothing is ever
defined twice. A header in double brackets opens one more table of an array, and a path
through such an array leads into its last table.
-/

namespace Scenario.Toml

mutual

/-- A table under construction. -/
inductive Table where
  /-- `passed` if no header has opened it; `dotted` if dotted keys made it. -/
  | mk (passed dotted : Bool) (entries : List (String × Node))

/-- What stands under a key. -/
inductive Node where
  | value (v : Json)
  | table (t : Table)
  /-- Tables opened by headers in double brackets, last first. -/
  | tables (ts : List Table)

end

instance : Inhabited Table := ⟨.mk false false []⟩

namespace Table

/-- A table as a header opens it. -/
def empty : Table := .mk false false []

/-- Whether no header has opened the table. -/
def passed : Table → Bool
  | mk p _ _ => p

/-- Whether dotted keys made the table. -/
def dotted : Table → Bool
  | mk _ d _ => d

/-- The entries of the table. -/
def entries : Table → List (String × Node)
  | mk _ _ es => es

/-- The same table, opened by a header. -/
def opened : Table → Table
  | mk _ d es => mk false d es

/-- What stands under a key. -/
def get? (t : Table) (k : String) : Option Node :=
  t.entries.lookup k

/-- Takes out a key. -/
def erase (k : String) : Table → Table
  | mk p d es => mk p d (es.filter (·.1 != k))

/-- Puts a node under a key. -/
def set (k : String) (n : Node) : Table → Table
  | mk p d es => mk p d ((k, n) :: es.filter (·.1 != k))

/-- Changes the table at the end of a path, making the tables on the way that are not there.
`byKeys` says that dotted keys lead there, which may not enter a table that a header opened. -/
def alter {α : Type} (byKeys : Bool) (f : Table → Option (Table × α)) :
    List String → Table → Option (Table × α)
  | [], t => f t
  | k :: ks, t =>
    match t.get? k with
    | none => do
      let (child, a) ← alter byKeys f ks (mk true byKeys [])
      return (t.set k (.table child), a)
    | some (.value _) => none
    | some (.table child) =>
      if byKeys && !child.passed then none
      else do
        let (child, a) ← alter byKeys f ks child
        return (t.set k (.table child), a)
    | some (.tables []) => none
    | some (.tables (last :: before)) => do
      let (last, a) ← alter byKeys f ks last
      return (t.set k (.tables (last :: before)), a)

/-- Defines a key, given by the path to its table and its name there. -/
def define (path : List String) (k : String) (v : Json) (t : Table) : Option Table :=
  (t.alter true · path |>.map (·.1)) fun owner =>
    if owner.dotted == path.isEmpty || (owner.get? k).isSome then none
    else some (owner.set k (.value v), ())

mutual

/-- The finished table. -/
def toJson : Table → Json
  | mk _ _ es => .object (entriesToJson es)

/-- Finished entries. -/
def entriesToJson : List (String × Node) → List (String × Json)
  | [] => []
  | (k, n) :: es => (k, nodeToJson n) :: entriesToJson es

/-- A finished node. -/
def nodeToJson : Node → Json
  | .value v => v
  | .table t => toJson t
  | .tables ts => .array (tablesToJson ts).reverse

/-- Finished tables. -/
def tablesToJson : List Table → List Json
  | [] => []
  | t :: ts => toJson t :: tablesToJson ts

end

end Table

/-- A document under construction: the tables finished so far, and the one that keys now go
into, with the path of its header. -/
structure Draft where
  root : Table
  current : Table
  path : List String
  /-- Whether the header was in double brackets. -/
  inArray : Bool

namespace Draft

/-- Before the first line: keys go into the root. -/
def start : Draft := ⟨.empty, .empty, [], false⟩

/-- Puts the current table in its place. -/
def close (d : Draft) : Option Table :=
  match d.path.getLast? with
  | none => some d.current
  | some k =>
    (d.root.alter false · d.path.dropLast |>.map (·.1)) fun parent =>
      if d.inArray then
        match parent.get? k with
        | some (.tables ts) => some (parent.set k (.tables (d.current :: ts)), ())
        | _ => none
      else some (parent.set k (.table d.current), ())

/-- Opens the table of a header. -/
def openTable (d : Draft) (path : List String) : Option Draft := do
  let root ← d.close
  let k ← path.getLast?
  let (root, current) ← (root.alter false · path.dropLast) fun parent =>
    match parent.get? k with
    | none => some (parent, .empty)
    | some (.table t) => if t.passed && !t.dotted then some (parent.erase k, t.opened) else none
    | some _ => none
  return ⟨root, current, path, false⟩

/-- Opens one more table of the array of a header in double brackets. -/
def openItem (d : Draft) (path : List String) : Option Draft := do
  let root ← d.close
  let k ← path.getLast?
  let (root, _) ← (root.alter false · path.dropLast) fun parent =>
    match parent.get? k with
    | none => some (parent.set k (.tables []), ())
    | some (.tables _) => some (parent, ())
    | some _ => none
  return ⟨root, .empty, path, true⟩

/-- Defines a key of the current table. -/
def define (d : Draft) (path : List String) (k : String) (v : Json) : Option Draft := do
  return { d with current := ← d.current.define path k v }

end Draft

end Scenario.Toml
