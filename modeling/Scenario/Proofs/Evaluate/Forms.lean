import Scenario.Proofs.Evaluate.Substitution
import Scenario.Proofs.Value.Equality

/-!
# Values in other forms

Equal values (`Value.same`) may still differ in the forms of their numbers: 5.1 is 51 at scale 1
and 510 at scale 2. The commands that only evaluate their operands respect this (`respected_same`).
They negate, scale, multiply, add and round numbers, and what comes of it is a function of the
number (`Decimal.toRat`) alone; nor does it depend on the form whether a value counts as true, and
whether two values agree. So expressions of equal values may stand for each other as operands, to
equal values (`evaluate_fill_same`).
-/

namespace Scenario

/-! ## Numbers -/

namespace Decimal

/-- Being the same number. -/
abbrev Same (m n : Decimal) : Prop :=
  m.same n = true

variable {m n : Decimal} (h : m.Same n)
include h

theorem same_neg : m.neg.Same n.neg := by
  rw [Same, same_iff_toRat_eq] at h ⊢
  rw [toRat_neg, toRat_neg, h]

theorem same_mul (k : Decimal) : (m.mul k).Same (n.mul k) := by
  rw [Same, same_iff_toRat_eq] at h ⊢
  rw [toRat_mul, toRat_mul, h]

theorem same_add (k : Decimal) : (m.add k).Same (n.add k) := by
  rw [Same, same_iff_toRat_eq] at h ⊢
  rw [toRat_add, toRat_add, h]

theorem same_roundWhole : m.roundWhole.Same n.roundWhole := by
  rw [Same, same_iff_toRat_eq] at h ⊢
  rw [roundWhole, roundWhole, toRat_roundTo, toRat_roundTo, h]

theorem isZero_eq_of_same : m.isZero = n.isZero := by
  rw [Same, same_iff_toRat_eq] at h
  rw [Bool.eq_iff_iff, isZero, isZero, beq_iff_eq, beq_iff_eq, ← toRat_eq_zero_iff,
    ← toRat_eq_zero_iff, h]

end Decimal

/-! ## Values -/

namespace Value

/-- Being equal but for the forms of numbers. -/
abbrev Same (v v' : Value) : Prop :=
  v.same v' = true

theorem same_refl (v : Value) : v.Same v := by
  induction v using induction_children with
  | h v ih =>
    rw [Same, same_iff]
    have hnumber (n : Decimal) : n.Same n := Decimal.same_iff_toRat_eq.mpr rfl
    cases v with
    | bool x => exact .bool x
    | number n => exact .number (hnumber n)
    | scaled n => exact .scaled (hnumber n)
    | percent n => exact .percent (hnumber n)
    | precise n k => exact .precise k (hnumber n)
    | text s => exact .text s
    | address s => exact .address s
    | list xs => exact .list (List.forall₂_same.mpr ih)
    | map xs =>
      exact .map (List.forall₂_same.mpr fun x hx => ⟨rfl, ih x.2 (List.mem_map_of_mem hx)⟩)
    | anything => exact .anything
    | nothing => exact .nothing
    | event e => exact .event e

variable {a a' b b' : Value}

theorem truthy_eq_of_same (h : a.Same a') : a.truthy = a'.truthy := by
  cases sameBy_of_same h with
  | number hn => rw [truthy, truthy, Decimal.isZero_eq_of_same hn]
  | scaled hn => rw [truthy, truthy, Decimal.isZero_eq_of_same hn]
  | percent hn => rw [truthy, truthy, Decimal.isZero_eq_of_same hn]
  | precise _ hn => rw [truthy, truthy, Decimal.isZero_eq_of_same hn]
  | list hxs => cases hxs <;> rfl
  | map hxs => cases hxs <;> rfl
  | _ => rfl

theorem agrees_eq_of_same (ha : a.Same a') (hb : b.Same b') :
    a.agrees b = a'.agrees b' := by
  rw [agrees_congr_left ha, agrees_comm, agrees_congr_left hb, agrees_comm]

/-- Equal values hold equal numbers, or none. -/
theorem number?_of_same (h : a.Same a') :
    Option.Rel Decimal.Same a.number? a'.number? := by
  cases ha : a.number? with
  | some m =>
    obtain ⟨n, hn, hsame⟩ := (sameBy_of_same h).exists_number? ha
    rw [hn]
    exact .some hsame
  | none =>
    cases ha' : a'.number? with
    | none => exact .none
    | some n =>
      obtain ⟨m, hm, -⟩ := (sameBy_of_same (same_symm h)).exists_number? ha'
      rw [ha] at hm
      cases hm

end Value

/-! ## Commands -/

namespace Core

/-- Commands that come to equal values if their operands do. -/
abbrev Respects (w : World) (c : Command) : Prop :=
  Command.Coupled (.inWorld w) (Interchangeable Value.Same w) Value.Same c c

variable {w : World} {e e' : Expr} {v v' : Value}

theorem content_same (hv : v.Same v') :
    (Comparison.inWorld w).Ends Decimal.Same (Operand.content e v)
      (Operand.content e' v') := by
  have hnumber := Value.number?_of_same hv
  rw [Operand.content, Operand.content]
  generalize v.number? = m?, v'.number? = n? at hnumber
  cases hnumber with
  | some h => exact .ok h
  | none => exact .error trivial

theorem number_same {param : String} (hv : v.Same v') :
    (Comparison.inWorld w).Ends Decimal.Same
      (Arguments.number [(param, .one v)] param) (Arguments.number [(param, .one v')] param) := by
  have hnumber := Value.number?_of_same hv
  simp only [Arguments.number, Arguments.content, Arguments.value, Arguments.argument, Entries.get?,
    if_true]
  generalize v.number? = m?, v'.number? = n? at hnumber
  cases hnumber with
  | some h => exact .ok h
  | none => exact .error trivial

theorem scaledNumber_same (he : Interchangeable Value.Same w e e') :
    (Operand.scaledNumber evaluate e).Coupled (.inWorld w) Decimal.Same
      (Operand.scaledNumber evaluate e') := by
  refine he.reads.bind fun v v' hv => ?_
  refine (Action.Coupled.ofExcept (content_same hv)).bind fun m n h => ?_
  refine .world_bind ?_
  rintro _ _ ⟨rfl, rfl⟩
  exact .pure (Decimal.same_mul h _)

theorem negated_same (he : Interchangeable Value.Same w e e') :
    (negated evaluate e).Coupled (.inWorld w) Value.Same
      (negated evaluate e') := by
  refine he.reads.bind fun v v' hv => ?_
  refine (Action.Coupled.ofExcept (content_same hv)).bind fun m n h => ?_
  exact .pure (Value.same_iff.mpr (.number (Decimal.same_neg h)))

theorem span_respects (name description param : String) (unit : Nat) :
    Respects w (span evaluate name description param unit) := by
  refine .of_one_param rfl rfl rfl rfl rfl rfl rfl fun e e' he => ?_
  refine .map (he.reads.mono fun v v' hv => ?_)
  refine (Action.Coupled.ofExcept (number_same hv)).bind fun m n h => ?_
  exact .pure (Value.same_iff.mpr (.number (Decimal.same_roundWhole (Decimal.same_mul h _))))

theorem fromNow_same (hv : v.Same v') :
    (fromNow [("seconds", .one v)]).Coupled (.inWorld w) Value.Same
      (fromNow [("seconds", .one v')]) := by
  refine (Action.Coupled.ofExcept (number_same hv)).bind fun m n h => ?_
  refine .world_bind ?_
  rintro _ _ ⟨rfl, rfl⟩
  exact .pure (Value.same_iff.mpr (.number (Decimal.same_roundWhole (Decimal.same_add h _))))

theorem equal_same {a a' b b' : Value} (ha : a.Same a') (hb : b.Same b') :
    equal (Entries.put "expected" (.one b) [("given", .one a)]) =
      equal (Entries.put "expected" (.one b') [("given", .one a')]) := by
  have hagrees := Value.agrees_eq_of_same hb ha
  rw [equal, equal, value_given, value_given, value_expected, value_expected]
  change Except.ok (Value.bool _) = .ok (.bool _)
  rw [hagrees]

/-- The commands that only evaluate their operands come to equal values if these do. -/
theorem respects_of_evaluating (w : World) (erc20 : Reading) (m : Manual) :
    ∀ c ∈ commands evaluate erc20 m,
      (∃ n ∈ evaluating, Text.sameFold n c.name = true) → Respects w c := by
  -- One row for each command, in the order of the table; the others do not go by these names.
  simp only [commands, List.forall_mem_cons]
  refine ⟨(absurd · (by decide)), (absurd · (by decide)), (absurd · (by decide)),
    (absurd · (by decide)), (absurd · (by decide)), (absurd · (by decide)),
    fun _ => deferred_coupled "Exactly" _ _ fun _ _ he => he.reads,
    (absurd · (by decide)), (absurd · (by decide)),
    fun _ => deferred_coupled "Exp" _ _ fun _ _ he =>
      .map ((scaledNumber_same he).mono fun _ _ h => Value.same_iff.mpr (.scaled h)),
    fun _ => deferred_coupled "Percent" _ _ fun _ _ he =>
      .map ((scaledNumber_same he).mono fun _ _ h => Value.same_iff.mpr (.percent h)),
    fun _ => deferred_coupled "Neg" _ _ fun _ _ he => negated_same he,
    (absurd · (by decide)), (absurd · (by decide)), (absurd · (by decide)),
    (absurd · (by decide)), (absurd · (by decide)), (absurd · (by decide)),
    fun _ => ?list, (absurd · (by decide)), fun _ => ?default,
    fun _ => span_respects "Minutes" .., fun _ => span_respects "Hours" ..,
    fun _ => span_respects "Days" .., fun _ => span_respects "Weeks" ..,
    fun _ => span_respects "Years" .., fun _ => ?fromNow,
    (absurd · (by decide)), (absurd · (by decide)), fun _ => ?equal, (absurd · (by decide)),
    List.forall_mem_nil _⟩
  case list =>
    refine .of_rest_param rfl rfl rfl rfl rfl fun es es' hes => ?_
    simp only [Command.readRest, if_true, Command.readEach_eq_mapM]
    refine .map ((Action.Coupled.mapM hes fun _ _ he => he.evaluates).mono fun vs vs' hvs => ?_)
    exact .pure (Value.same_iff.mpr (.list hvs))
  case default =>
    refine .of_two_params rfl rfl rfl (by simp) fun e₁ e₁' e₂ e₂' he₁ he₂ => ?_
    refine .map (he₁.evaluates.mono fun v v' hv => .map (.pure ?_))
    exact firstTrue_coupled he₂.evaluates hv (Value.truthy_eq_of_same hv)
  case fromNow =>
    exact .of_one_param rfl rfl rfl rfl rfl rfl rfl fun e e' he =>
      .map (he.reads.mono fun v v' hv => fromNow_same hv)
  case equal =>
    refine .of_two_params rfl rfl rfl (by simp) fun e₁ e₁' e₂ e₂' he₁ he₂ => ?_
    refine .map (he₁.evaluates.mono fun a a' ha => .map (he₂.evaluates.mono fun b b' hb => ?_))
    dsimp only
    rw [equal_same ha hb]
    exact (Action.Coupled.ofExcept_refl _).mono fun v _ h => h ▸ Value.same_refl v

end Core

theorem respected_same (w : World) : Respected Value.Same w where
  refl := Value.same_refl
  accepts_eq v v' hv := by
    have hnumber := Value.number?_of_same hv
    simp only [Kind.accepts]
    generalize v.number? = m?, v'.number? = n? at hnumber
    cases hnumber <;> rfl
  overloads name hname := by
    refine List.forall₂_same.mpr fun c hc => ?_
    obtain ⟨hmem, hnamed⟩ := List.mem_filter.mp hc
    obtain ⟨n, hn, hsame⟩ := hname
    refine Core.respects_of_evaluating w _ _ c hmem ⟨n, hn, ?_⟩
    rw [Command.isNamed, Text.sameFold_iff] at hnamed
    rw [Text.sameFold_iff] at hsame ⊢
    rw [hsame, hnamed]

/-- Expressions that evaluate to equal values may stand for each other under any commands that
evaluate their operands: the outcomes have equal values, or neither has one. -/
theorem evaluate_fill_same {w : World} {e₁ e₂ : Expr} {v₁ v₂ : Value}
    (h₁ : (evaluate e₁ w).1 = .ok v₁) (h₂ : (evaluate e₂ w).1 = .ok v₂)
    (hv : v₁.same v₂ = true) (C : Context) :
    (∃ u₁ u₂, (evaluate (C.fill e₁) w).1 = .ok u₁ ∧ (evaluate (C.fill e₂) w).1 = .ok u₂ ∧
      u₁.same u₂ = true) ∨
    ∃ f₁ f₂, (evaluate (C.fill e₁) w).1 = .error f₁ ∧ (evaluate (C.fill e₂) w).1 = .error f₂ := by
  have hends := (respected_same w).evaluate_fill hv h₁ h₂ C
  generalize (evaluate (C.fill e₁) w).1 = r₁, (evaluate (C.fill e₂) w).1 = r₂ at hends ⊢
  cases hends with
  | ok hu => exact .inl ⟨_, _, rfl, rfl, hu⟩
  | error _ => exact .inr ⟨_, _, rfl, rfl⟩

end Scenario
