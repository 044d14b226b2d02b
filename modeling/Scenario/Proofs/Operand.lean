import Scenario.Operand
import Scenario.Proofs.Action
import Scenario.Proofs.Failure

/-!
# What operands are read as

If the evaluation that a reading falls back to fails for external reasons only, so does the
reading, and what it reads is of the kind it is named for: `readAs_gives` for the readings that
take a literal or a value, the others by themselves.
-/

namespace Scenario

/-- A reading that gives values which satisfy `P` and fails for external reasons only. -/
def Reading.Gives (reading : Reading) (P : Value → Prop) : Prop :=
  ∀ e, (reading e).Yields P Failure.External

namespace Operand

variable {core : Reading}

theorem expect_yields (kind : Kind) (e : Expr) (v : Value) :
    (expect kind e v).Yields (fun v => kind.accepts v = true) Failure.External := by
  rw [expect]
  split
  · exact .pure ‹_›
  · exact .fail (.kindMismatch ..)

theorem readAs_gives {kind : Kind} {literal : Literal} {evaluate : Reading}
    (hok : ∀ w s v, literal w s = .ok v → kind.accepts v = true)
    (herror : ∀ w s f, literal w s = .error f → f.External)
    (heval : evaluate.Gives fun _ => True) :
    (readAs kind literal evaluate).Gives fun v => kind.accepts v = true := by
  intro e
  cases e with
  | list es => exact (heval _).bind fun v _ => expect_yields kind _ v
  | atom s =>
    refine .world_bind fun w => ?_
    cases hl : literal w s with
    | ok v => exact .pure (hok w s v hl)
    | error f =>
      refine (heval _).attempt.bind fun r _ => ?_
      cases r with
      | ok v => exact expect_yields kind _ v
      | error _ => exact .fail (herror w s f hl)

theorem event_gives : event.Gives fun v => ∃ e, v = .event e :=
  fun e => .pure ⟨e, rfl⟩

/-- What is read as a number carries one. -/
theorem number_gives (h : core.Gives fun _ => True) :
    (number core).Gives fun v => v.number?.isSome = true := by
  refine readAs_gives (fun w s v hv => ?_) (fun w s f hf => ?_) h
  · rw [numberLiteral] at hv
    split at hv
    · cases hv
      rfl
    · cases hv
  · rw [numberLiteral] at hf
    split at hf
    · cases hf
    · cases hf
      exact .literal ..

theorem text_gives (h : core.Gives fun _ => True) :
    (text core).Gives fun v => ∃ s, v = .text s := by
  have hread : (text core).Gives fun v => Kind.text.accepts v = true :=
    readAs_gives (by rintro _ _ _ ⟨⟩; rfl) nofun h
  refine fun e => (hread e).mono (fun v hv => ?_) fun _ hf => hf
  cases v <;> simp_all [Kind.accepts, Value.kind]

theorem address_gives (h : core.Gives fun _ => True) :
    (address core).Gives fun v => ∃ s, v = .address s := by
  have hread : (address core).Gives fun v => Kind.address.accepts v = true := by
    refine readAs_gives (fun w s v hv => ?_) (fun w s f hf => ?_) fun e => .map (h e)
    · rw [addressLiteral] at hv
      split at hv
      · cases hv
        rfl
      · cases hv
    · rw [addressLiteral] at hf
      split at hf
      · cases hf
      · cases hf
        exact .literal ..
  refine fun e => (hread e).mono (fun v hv => ?_) fun _ hf => hf
  cases v <;> simp_all [Kind.accepts, Value.kind]

theorem exists_content {v : Value} (h : v.number?.isSome = true) (e : Expr) :
    ∃ n, content e v = .ok n := by
  obtain ⟨n, hn⟩ := Option.isSome_iff_exists.mp h
  exact ⟨n, by rw [content, hn]⟩

theorem scaledNumber_yields (h : core.Gives fun _ => True) (e : Expr) :
    (scaledNumber core e).Yields (fun _ => True) Failure.External := by
  refine (number_gives h e).bind fun v hv => ?_
  obtain ⟨n, hn⟩ := exists_content hv e
  rw [hn]
  exact .ok_bind (.world_bind fun _ => .pure trivial)

theorem scaled_gives (h : core.Gives fun _ => True) : (scaled core).Gives fun _ => True :=
  fun e => .map (scaledNumber_yields h e)

theorem percent_gives (h : core.Gives fun _ => True) : (percent core).Gives fun _ => True :=
  fun e => .map (scaledNumber_yields h e)

theorem pairValue_gives (h : core.Gives fun _ => True) : (pairValue core).Gives fun _ => True := by
  intro e
  cases e with
  | atom s => exact .pure trivial
  | list es => exact h _

theorem readPairs_yields (h : core.Gives fun _ => True) (whole : Expr) (pairs : List Expr)
    (entries : Entries Value) :
    (readPairs core whole pairs entries).Yields (fun _ => True) Failure.External := by
  fun_induction readPairs core whole pairs entries with
  | case1 => exact .pure trivial
  | case2 key value pairs entries ih => exact (pairValue_gives h value).bind fun v _ => ih v
  | case3 => exact .fail (.kindMismatch ..)

theorem map_gives (h : core.Gives fun _ => True) : (map core).Gives fun _ => True :=
  fun e => .map (readPairs_yields h e _ _)

end Operand

end Scenario
