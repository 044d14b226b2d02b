/-!
# Entries in key order

A finite map from texts is a row of entries with ascending keys. `put` keeps that order
and replaces the entry of a key that is already there, so the last value put under a key
is the one `get?` finds (`get?_put`).
-/

namespace Scenario

/-- A row of keys with their values. -/
abbrev Entries (α : Type) := List (String × α)

namespace Entries

variable {α : Type}

/-- Puts a value under a key, in the place that the order of keys gives it. -/
def put (k : String) (v : α) : Entries α → Entries α
  | [] => [(k, v)]
  | (k', v') :: r =>
    if k = k' then (k, v) :: r
    else if k < k' then (k, v) :: (k', v') :: r
    else (k', v') :: put k v r

/-- The value under a key. -/
def get? (k : String) : Entries α → Option α
  | [] => none
  | (k', v) :: r => if k = k' then some v else get? k r

/-- Takes out the entry of a key. -/
def erase (k : String) : Entries α → Entries α
  | [] => []
  | (k', v) :: r => if k = k' then r else (k', v) :: erase k r

/-- Puts the entries of a row one after the other. -/
def ofList (xs : List (String × α)) : Entries α :=
  xs.foldl (fun es x => put x.1 x.2 es) []

theorem get?_put (k k' : String) (v : α) (es : Entries α) :
    get? k' (put k v es) = if k' = k then some v else get? k' es := by
  induction es with
  | nil => simp [put, get?]
  | cons e es ih =>
    obtain ⟨k₁, v₁⟩ := e
    rw [put]
    split
    · rename_i h; subst h
      simp only [get?]
      split <;> rfl
    · split
      · simp only [get?]
      · rename_i h _
        simp only [get?, ih]
        split
        · rename_i h'; subst h'
          rw [if_neg (fun e => h e.symm)]
        · rfl

end Entries

end Scenario
