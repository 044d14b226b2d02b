/-!
# Expressions

An expression is a tree of texts: an atom is a text, a list is an ordered group of
expressions. It has no type of its own; whoever reads an operand decides what its
text means.
-/

namespace Scenario

/-- An atom (a text) or a list of expressions. -/
inductive Expr where
  | atom (text : String)
  | list (items : List Expr)
deriving Inhabited, Repr

namespace Expr

mutual

/-- Decides whether two expressions are the same tree. -/
def decEq : (a b : Expr) → Decidable (a = b)
  | atom s, atom t =>
    if h : s = t then isTrue (by rw [h]) else isFalse (by simpa using h)
  | atom _, list _ => isFalse nofun
  | list _, atom _ => isFalse nofun
  | list xs, list ys =>
    match decEqItems xs ys with
    | isTrue h => isTrue (by rw [h])
    | isFalse h => isFalse (by simpa using h)

/-- Decides whether two rows of expressions are the same. -/
def decEqItems : (xs ys : List Expr) → Decidable (xs = ys)
  | [], [] => isTrue rfl
  | [], _ :: _ => isFalse nofun
  | _ :: _, [] => isFalse nofun
  | x :: xs, y :: ys =>
    match decEq x y with
    | isFalse h => isFalse (by simp [h])
    | isTrue h =>
      match decEqItems xs ys with
      | isTrue h' => isTrue (by rw [h, h'])
      | isFalse h' => isFalse (by simp [h'])

end

instance : DecidableEq Expr := decEq

/-- The text of an atom. -/
def atom? : Expr → Option String
  | atom s => some s
  | list _ => none

/-- The items of a list. -/
def list? : Expr → Option (List Expr)
  | atom _ => none
  | list xs => some xs

/-- The expression as a row of operands: a list stands for its items, an atom for itself. -/
def items : Expr → List Expr
  | atom s => [atom s]
  | list xs => xs

mutual

/-- How deep lists are nested: an atom has depth 0, a list is one deeper than its deepest item. -/
def depth : Expr → Nat
  | atom _ => 0
  | list xs => 1 + deepest xs

/-- The depth of the deepest expression of a row, 0 for none. -/
def deepest : List Expr → Nat
  | [] => 0
  | x :: xs => max (depth x) (deepest xs)

end

theorem depth_le_deepest {x : Expr} {xs : List Expr} (h : x ∈ xs) : depth x ≤ deepest xs := by
  induction xs with
  | nil => cases h
  | cons y ys ih =>
    rw [deepest]
    rcases List.mem_cons.mp h with rfl | h
    · exact Nat.le_max_left _ _
    · exact Nat.le_trans (ih h) (Nat.le_max_right _ _)

theorem depth_lt_of_mem {x : Expr} {xs : List Expr} (h : x ∈ xs) : depth x < depth (list xs) := by
  have := depth_le_deepest h
  rw [depth]
  omega

end Expr

end Scenario
