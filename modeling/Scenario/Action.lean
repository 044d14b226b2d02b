import Scenario.Failure
import Scenario.World

/-!
# Actions

An action runs in a world and leaves a world, whether it yields a result or fails: what
was changed before a failure stays changed.
-/

namespace Scenario

/-- A computation in a world that may fail. -/
def Action (α : Type) : Type :=
  World → Except Failure α × World

namespace Action

variable {α β : Type}

instance : Monad Action where
  pure a := fun w => (.ok a, w)
  bind a f := fun w =>
    match a w with
    | (.ok x, w') => f x w'
    | (.error e, w') => (.error e, w')

theorem pure_apply (a : α) (w : World) : (pure a : Action α) w = (.ok a, w) := rfl

theorem bind_apply (a : Action α) (f : α → Action β) (w : World) :
    (a >>= f) w =
      match a w with
      | (.ok x, w') => f x w'
      | (.error e, w') => (.error e, w') := rfl

instance : LawfulMonad Action := LawfulMonad.mk' Action
  (fun a => by
    funext w
    change (match a w with
      | (.ok x, w') => (.ok x, w')
      | (.error e, w') => (.error e, w')) = a w
    rcases a w with ⟨_ | _, _⟩ <;> rfl)
  (fun _ _ => rfl)
  (fun a f g => by
    funext w
    simp only [bind_apply]
    rcases a w with ⟨_ | _, _⟩ <;> rfl)

/-- Fails, leaving the world as it is. -/
def fail (e : Failure) : Action α :=
  fun w => (.error e, w)

/-- The world as it is. -/
def world : Action World :=
  fun w => (.ok w, w)

/-- Changes the world. -/
def modify (f : World → World) : Action Unit :=
  fun w => (.ok (), f w)

/-- A result or failure that needs no world. -/
def ofExcept (r : Except Failure α) : Action α :=
  fun w => (r, w)

/-- Runs an action to its result or failure, and goes on in the world it leaves. -/
def attempt (a : Action α) : Action (Except Failure α) :=
  fun w =>
    match a w with
    | (r, w') => (.ok r, w')

end Action

end Scenario
