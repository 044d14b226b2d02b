import Scenario.Command.Arguments

/-!
# Arguments that are there

What a body finds when it looks up an argument that was bound: `content_eq_ok` for a value of the
kind asked for, and conversely `of_content_eq_ok`; `value_eq_ok` for any one value, and
`exists_take` for an argument that is taken out.
-/

namespace Scenario.Arguments

theorem content_eq_ok {α : Type} {kind : Kind} {content? : Value → Option α} {args : Arguments}
    {name : String} {v : Value} {x : α} (hv : args.get? name = some (.one v))
    (hx : content? v = some x) : args.content kind content? name = .ok x := by
  simp only [content, value, argument, hv, hx]

theorem of_content_eq_ok {α : Type} {kind : Kind} {content? : Value → Option α} {args : Arguments}
    {name : String} {v : Value} {x : α} (hv : args.get? name = some (.one v))
    (h : args.content kind content? name = .ok x) : content? v = some x := by
  simp only [content, value, argument, hv] at h
  split at h
  · cases h
    assumption
  · cases h

theorem value_eq_ok {args : Arguments} {name : String} {v : Value}
    (hv : args.get? name = some (.one v)) : args.value name = .ok v := by
  simp only [value, argument, hv]

theorem exists_take {args : Arguments} {name : String} {a : Argument}
    (ha : args.get? name = some a) : ∃ v, args.take name = .ok (v, args.erase name) := by
  simp only [take, argument, ha]
  cases a <;> exact ⟨_, rfl⟩

end Scenario.Arguments
