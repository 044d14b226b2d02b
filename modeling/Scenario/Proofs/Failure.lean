import Scenario.Failure
import Scenario.Proofs.Expr.RoundTrip

/-!
# The causes of a failure

The failure of a command that took none of its operands carries another one, so a failure heads
a chain of causes. `Failure.Explained` says of a whole chain that none of its members is
internal, that is, a complaint of the evaluator about itself.

`Failure.External` are the failures that evaluation can give, as they are built up: by what an
expression asks for or what the world holds, and around such a failure, or one of arity, by a
rejection. `External.explained` goes from one to the other.
-/

namespace Scenario

/-- An origin that is an expression is never taken for the name of an argument. -/
theorem Expr.text_ne_argument (e : Expr) (name : String) : e.text ≠ "argument " ++ name := by
  intro h
  have hl := congrArg String.toList h
  rw [Expr.toList_text, String.toList_append] at hl
  cases e with
  | atom s =>
    rw [Expr.written, Expr.writtenAtom] at hl
    split at hl
    · rename_i hbare
      -- A word has no blank.
      exact Expr.not_mem_of_isBare (c := ' ') hbare (by decide) (by simp [hl])
    · simp [Expr.quotedAtom] at hl
  | list es => simp [Expr.written] at hl

namespace Failure

/-- A failure and those that it was caused by, the first cause being last. -/
def chain : Failure → List Failure
  | rejected voc name expr signatures cause =>
    rejected voc name expr signatures cause :: cause.chain
  | f => [f]

/-- The failures of an evaluator that does not find what it has itself provided for. -/
inductive Internal : Failure → Prop where
  | missingArgument (name : String) : Internal (.missingArgument name)
  | vocabulary (fault : VocabularyFault) : Internal (.vocabulary fault)
  | config (fault : ConfigFault) : Internal (.config fault)
  | read (error : ReadError) : Internal (.read error)
  /-- An argument is not of the kind that the command asks it to be. -/
  | argument (expected : Kind) (origin : Origin) (found : Found) (name : String)
      (h : origin.shown = "argument " ++ name) : Internal (.kindMismatch expected origin found)

/-- Whether a failure can be the first cause of another. -/
def isCause : Failure → Bool
  | literal _ _ _ => true
  | kindMismatch _ _ _ => true
  | unknownCommand _ _ => true
  | arity _ _ => true
  | headless _ _ => true
  | precondition _ => true
  | client _ => true
  | _ => false

/-- A failure with causes that are all of the expression's or the world's making. -/
structure Explained (f : Failure) : Prop where
  not_internal : ∀ g ∈ f.chain, ¬g.Internal
  /-- A failure of arity is the cause of a rejection, so it never comes first. -/
  arity_rejected : ∀ front expected given rest,
    f.chain = front ++ .arity expected given :: rest →
      ∃ before voc name expr signatures,
        front = before ++ [.rejected voc name expr signatures (.arity expected given)]
  last_isCause : ∃ g, f.chain.getLast? = some g ∧ g.isCause = true

/-- The failures that evaluation gives. -/
inductive External : Failure → Prop where
  | literal (expected : Kind) (text : String) (reason : LiteralReason) :
      External (.literal expected text reason)
  | kindMismatch (expected : Kind) (e : Expr) (found : Found) :
      External (.kindMismatch expected (.expr e) found)
  | unknownCommand (vocabulary name : String) : External (.unknownCommand vocabulary name)
  | headless (vocabulary : String) (e : Expr) : External (.headless vocabulary e)
  | precondition (missing : Precondition) : External (.precondition missing)
  | client (failure : ClientFailure) : External (.client failure)
  | rejectedCount (vocabulary name : String) (e : Expr) (signatures : List String)
      (expected : Arity) (given : Nat) :
      External (.rejected vocabulary name e signatures (.arity expected given))
  | rejected (vocabulary name : String) (e : Expr) (signatures : List String) {cause : Failure}
      (h : External cause) : External (.rejected vocabulary name e signatures cause)

/-- The failures for which a command rejects its operands. -/
def Rejecting (f : Failure) : Prop :=
  f.External ∨ ∃ expected given, f = .arity expected given

theorem Rejecting.external {f : Failure} (h : f.Rejecting) (voc name : String) (e : Expr)
    (signatures : List String) : (rejected voc name e signatures f).External := by
  rcases h with hf | ⟨expected, given, rfl⟩
  · exact .rejected _ _ _ _ hf
  · exact .rejectedCount ..

theorem External.not_internal {f : Failure} (h : f.External) : ¬f.Internal := by
  intro hi
  cases hi with
  | argument expected origin found name hname =>
    cases h
    exact Expr.text_ne_argument _ _ hname
  | _ => cases h

theorem explained_of_chain_eq {f : Failure} (hc : f.chain = [f]) (hi : ¬f.Internal)
    (ha : ∀ expected given, f ≠ .arity expected given) (hf : f.isCause = true) :
    f.Explained where
  not_internal := by
    rw [hc]
    simpa using hi
  arity_rejected := by
    intro front expected given rest h
    rw [hc] at h
    have hm : Failure.arity expected given ∈ [f] := by simp [h]
    exact absurd (List.mem_singleton.mp hm).symm (ha expected given)
  last_isCause := ⟨f, by simp [hc], hf⟩

theorem not_internal_rejected {voc name : String} {e : Expr} {signatures : List String}
    {cause : Failure} : ¬(rejected voc name e signatures cause).Internal := nofun

theorem explained_rejected_arity (voc name : String) (e : Expr) (signatures : List String)
    (expected : Arity) (given : Nat) :
    (rejected voc name e signatures (.arity expected given)).Explained where
  not_internal := by
    rw [chain, List.forall_mem_cons]
    refine ⟨not_internal_rejected, fun g hg => ?_⟩
    obtain rfl := List.mem_singleton.mp hg
    exact nofun
  arity_rejected := by
    intro front expected' given' rest h
    cases front with
    | nil => simp [chain] at h
    | cons g front =>
      rw [chain, List.cons_append, List.cons.injEq] at h
      obtain ⟨rfl, h⟩ := h
      rcases List.singleton_eq_append_iff.mp h with ⟨rfl, hlast⟩ | ⟨-, hnil⟩
      · cases hlast
        exact ⟨[], voc, name, e, signatures, rfl⟩
      · cases hnil
  last_isCause := ⟨_, rfl, rfl⟩

theorem Explained.rejected {cause : Failure} (h : cause.Explained) (voc name : String) (e : Expr)
    (signatures : List String) : (rejected voc name e signatures cause).Explained where
  not_internal := by
    rw [chain, List.forall_mem_cons]
    exact ⟨not_internal_rejected, h.not_internal⟩
  arity_rejected := by
    intro front expected given rest heq
    cases front with
    | nil => simp [chain] at heq
    | cons g front =>
      rw [chain, List.cons_append, List.cons.injEq] at heq
      obtain ⟨rfl, heq⟩ := heq
      obtain ⟨before, v, n, x, sigs, rfl⟩ := h.arity_rejected front expected given rest heq
      exact ⟨_ :: before, v, n, x, sigs, rfl⟩
  last_isCause := by
    obtain ⟨g, hg, hcause⟩ := h.last_isCause
    refine ⟨g, ?_, hcause⟩
    rw [chain, List.getLast?_cons, hg]
    rfl

/-- The failures that evaluation gives are explained. -/
theorem External.explained {f : Failure} (h : f.External) : f.Explained := by
  have hf := h.not_internal
  induction h with
  | rejectedCount => exact explained_rejected_arity ..
  | rejected voc name e signatures hcause ih => exact (ih hcause.not_internal).rejected ..
  | _ => exact explained_of_chain_eq rfl hf (by simp) rfl

end Failure

end Scenario
