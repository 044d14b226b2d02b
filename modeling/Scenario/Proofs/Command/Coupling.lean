import Scenario.Proofs.Action.Coupling
import Scenario.Proofs.Command.Binding

/-!
# Commands that run alike

Two commands are coupled (`Command.Coupled`) if they bind related operands alike and their bodies
then run alike, to values that a given relation relates. For most commands it is enough that each
parameter reads alike and that the bodies run alike on the same arguments
(`Command.Coupled.of_params`). For a command whose body reads an operand itself, or runs alike only
on what its parameters can have read, `Command.Coupled.of_one_param`,
`Command.Coupled.of_two_params` and `Command.Coupled.of_rest_param` hand the relation between the
operands on to the body.

Vocabularies with coupled overloads evaluate alike (`Vocabulary.evaluate_coupled`).
-/

namespace Scenario

variable {K : Comparison} {E : Expr → Expr → Prop} {R : Value → Value → Prop}

/-! ## Parameters -/

/-- Two parameters that make the same arguments of related operands. -/
structure Param.Coupled (K : Comparison) (E : Expr → Expr → Prop) (p p' : Param) : Prop where
  name_eq : p.name = p'.name
  rest_eq : p.rest = p'.rest
  default_eq : p.default? = p'.default?
  one : p.rest = false → ∀ e e', E e e' →
    (Command.readOne p e).Coupled K Eq (Command.readOne p' e')
  rest : p.rest = true → ∀ es es', List.Forall₂ E es es' →
    (Command.readRest p es).Coupled K Eq (Command.readRest p' es')

namespace Param.Coupled

variable {r r' : Reading} (name : String)

theorem plain (h : ∀ e e', E e e' → (r e).Coupled K Eq (r' e')) :
    Param.Coupled K E { name, reading := r } { name, reading := r' } where
  name_eq := rfl
  rest_eq := rfl
  default_eq := rfl
  one _ e e' he := .map ((h e e' he).mono fun _ _ hv => congrArg _ hv)
  rest := nofun

/-- Operands that are read one by one. -/
theorem readEach (h : ∀ e e', E e e' → (r e).Coupled K Eq (r' e')) {es es' : List Expr}
    (hes : List.Forall₂ E es es') :
    (Argument.several <$> Command.readEach r es).Coupled K Eq
      (.several <$> Command.readEach r' es') := by
  rw [Command.readEach_eq_mapM, Command.readEach_eq_mapM]
  refine .map ((Action.Coupled.mapM hes h).mono fun vs vs' hvs => ?_)
  rw [List.forall₂_eq_eq_eq] at hvs
  rw [hvs]

theorem restEach (h : ∀ e e', E e e' → (r e).Coupled K Eq (r' e')) :
    Param.Coupled K E { name, reading := r, rest := true, each := true }
      { name, reading := r', rest := true, each := true } where
  name_eq := rfl
  rest_eq := rfl
  default_eq := rfl
  one := nofun
  rest _ _ _ hes := readEach h hes

theorem restWhole
    (h : ∀ es es', List.Forall₂ E es es' → (r (.list es)).Coupled K Eq (r' (.list es'))) :
    Param.Coupled K E { name, reading := r, rest := true }
      { name, reading := r', rest := true } where
  name_eq := rfl
  rest_eq := rfl
  default_eq := rfl
  one := nofun
  rest _ es es' hes := .map ((h es es' hes).mono fun _ _ hv => congrArg _ hv)

/-- Any parameter is coupled with itself if its readings are. -/
theorem of_reading {p : Param} (h : ∀ e, (p.reading e).Coupled K Eq (p.reading e)) :
    Param.Coupled K Eq p p := by
  have hsame : ∀ e e', e = e' → (p.reading e).Coupled K Eq (p.reading e') := by
    rintro e _ rfl
    exact h e
  have hwhole (e : Expr) : (Argument.one <$> p.reading e).Coupled K Eq (.one <$> p.reading e) :=
    .map ((h e).mono fun _ _ hv => congrArg _ hv)
  refine ⟨rfl, rfl, rfl, fun _ e e' he => ?_, fun _ es es' hes => ?_⟩
  · subst he
    rw [Command.readOne]
    split
    · exact readEach hsame (List.forall₂_refl _)
    · exact hwhole e
  · obtain rfl : es = es' := by rwa [List.forall₂_eq_eq_eq] at hes
    rw [Command.readRest]
    split
    · exact readEach hsame hes
    · exact hwhole _

end Param.Coupled

/-! ## Commands -/

/-- Two commands that bind related operands alike, to arguments on which their bodies run alike. -/
structure Command.Coupled (K : Comparison) (E : Expr → Expr → Prop) (R : Value → Value → Prop)
    (c c' : Command) : Prop where
  signature_eq : c.signature = c'.signature
  bind : ∀ es es', List.Forall₂ E es es' →
    (c.bind es).Coupled K (fun args args' => (c.body args).Coupled K R (c'.body args'))
      (c'.bind es')

namespace Command

theorem bindParams_coupled {ps ps' : List Param} (hps : List.Forall₂ (Param.Coupled K E) ps ps')
    {es es' : List Expr} (hes : List.Forall₂ E es es') (args : Arguments) :
    (bindParams ps es args).Coupled K Eq (bindParams ps' es' args) := by
  induction hps generalizing es es' args with
  | nil =>
    rw [bindParams, bindParams]
    exact .pure rfl
  | @cons p p' ps ps' hp _ ih =>
    cases hrest : p.rest with
    | true =>
      have hrest' : p'.rest = true := hp.rest_eq ▸ hrest
      simp only [bindParams, hrest, hrest', ← hp.name_eq, if_true]
      refine (hp.rest hrest es es' hes).bind ?_
      rintro a _ rfl
      exact ih .nil _
    | false =>
      have hrest' : p'.rest = false := hp.rest_eq ▸ hrest
      cases hes with
      | nil =>
        simp only [bindParams, hrest, hrest', ← hp.name_eq, ← hp.default_eq, Bool.false_eq_true,
          if_false]
        cases p.default? with
        | none => exact .fail (K.failures_refl _)
        | some v => exact ih .nil _
      | cons he hes =>
        simp only [bindParams, hrest, hrest', ← hp.name_eq, Bool.false_eq_true, if_false]
        refine (hp.one hrest _ _ he).bind ?_
        rintro a _ rfl
        exact ih hes _

theorem bind_one {c : Command} {p : Param} (hc : c.params = [p]) (hrest : p.rest = false)
    (hdefault : p.default? = none) (es : List Expr) :
    c.bind es =
      match es with
      | [e] => (fun a => [(p.name, a)]) <$> readOne p e
      | es => .fail (.arity ⟨1, some 1⟩ es.length) := by
  have harity : c.arity = ⟨1, some 1⟩ := by
    simp [arity, hc, Param.required, hrest, hdefault]
  rw [bind, harity]
  rcases es with _ | ⟨e, _ | ⟨_, _⟩⟩
  · rfl
  · simp only [hc, bindParams, hrest]
    rfl
  · rw [if_neg (by simp [Arity.fits])]

theorem bind_two {c : Command} {p q : Param} (hc : c.params = [p, q]) (hp : p.rest = false)
    (hq : q.rest = false) (hp' : p.default? = none) (hq' : q.default? = none) (es : List Expr) :
    c.bind es =
      match es with
      | [e₁, e₂] => do
        let a ← readOne p e₁
        let b ← readOne q e₂
        return Entries.put q.name b [(p.name, a)]
      | es => .fail (.arity ⟨2, some 2⟩ es.length) := by
  have harity : c.arity = ⟨2, some 2⟩ := by
    simp [arity, hc, Param.required, hp, hq, hp', hq']
  rw [bind, harity]
  rcases es with _ | ⟨e₁, _ | ⟨e₂, _ | ⟨_, _⟩⟩⟩
  · rfl
  · rfl
  · simp only [hc, bindParams, hp, hq]
    rfl
  · rw [if_neg (by simp [Arity.fits])]

namespace Coupled

variable {c c' : Command}

/-- Parameters that read alike, and bodies that run alike on the same arguments. -/
theorem of_params (hsignature : c.signature = c'.signature) (harity : c.arity = c'.arity)
    (hps : List.Forall₂ (Param.Coupled K E) c.params c'.params)
    (hbody : ∀ args, (c.body args).Coupled K R (c'.body args)) : Command.Coupled K E R c c' where
  signature_eq := hsignature
  bind es es' hes := by
    rw [Command.bind, Command.bind, ← harity, ← hes.length_eq]
    split
    · refine (bindParams_coupled hps hes []).mono ?_
      rintro args _ rfl
      exact hbody args
    · exact .fail (K.failures_refl _)

/-- One parameter each, and bodies that run alike on what these read. -/
theorem of_one_param {p p' : Param} (hsignature : c.signature = c'.signature)
    (hc : c.params = [p]) (hc' : c'.params = [p']) (hrest : p.rest = false)
    (hrest' : p'.rest = false) (hdefault : p.default? = none) (hdefault' : p'.default? = none)
    (hread : ∀ e e', E e e' →
      (readOne p e).Coupled K
        (fun a a' => (c.body [(p.name, a)]).Coupled K R (c'.body [(p'.name, a')]))
        (readOne p' e')) : Command.Coupled K E R c c' where
  signature_eq := hsignature
  bind es es' hes := by
    rw [bind_one hc hrest hdefault, bind_one hc' hrest' hdefault']
    match es, es', hes with
    | _, _, .nil => exact .fail (K.failures_refl _)
    | _, _, .cons he .nil => exact .map (hread _ _ he)
    | _ :: _ :: _, _ :: _ :: _, .cons _ hes =>
      simp only [List.length_cons, hes.length_eq]
      exact .fail (K.failures_refl _)

/-- Two parameters each, and bodies that run alike on what these read. -/
theorem of_two_params {p p' q q' : Param} (hsignature : c.signature = c'.signature)
    (hc : c.params = [p, q]) (hc' : c'.params = [p', q'])
    (hp : ∀ x ∈ [p, q, p', q'], x.rest = false ∧ x.default? = none)
    (hread : ∀ e₁ e₁' e₂ e₂', E e₁ e₁' → E e₂ e₂' →
      (readOne p e₁).Coupled K
        (fun a a' => (readOne q e₂).Coupled K
          (fun b b' => (c.body (Entries.put q.name b [(p.name, a)])).Coupled K R
            (c'.body (Entries.put q'.name b' [(p'.name, a')])))
          (readOne q' e₂'))
        (readOne p' e₁')) : Command.Coupled K E R c c' where
  signature_eq := hsignature
  bind es es' hes := by
    simp only [List.forall_mem_cons] at hp
    obtain ⟨⟨hp, hp₁⟩, ⟨hq, hq₁⟩, ⟨hp', hp₁'⟩, ⟨hq', hq₁'⟩, -⟩ := hp
    rw [bind_two hc hp hq hp₁ hq₁, bind_two hc' hp' hq' hp₁' hq₁']
    match es, es', hes with
    | _, _, .nil => exact .fail (K.failures_refl _)
    | _, _, .cons _ .nil => exact .fail (K.failures_refl _)
    | _, _, .cons he₁ (.cons he₂ .nil) =>
      exact (hread _ _ _ _ he₁ he₂).bind fun a a' ha => ha.bind fun b b' hb => .pure hb
    | _ :: _ :: _ :: _, _ :: _ :: _ :: _, .cons _ hes =>
      simp only [List.length_cons, hes.length_eq]
      exact .fail (K.failures_refl _)

/-- One parameter each, which takes all operands, and bodies that run alike on what these read. -/
theorem of_rest_param {p p' : Param} (hsignature : c.signature = c'.signature)
    (hc : c.params = [p]) (hc' : c'.params = [p']) (hrest : p.rest = true)
    (hrest' : p'.rest = true)
    (hread : ∀ es es', List.Forall₂ E es es' →
      (readRest p es).Coupled K
        (fun a a' => (c.body [(p.name, a)]).Coupled K R (c'.body [(p'.name, a')]))
        (readRest p' es')) : Command.Coupled K E R c c' where
  signature_eq := hsignature
  bind es es' hes := by
    rw [bind_readRest hc hrest, bind_readRest hc' hrest']
    exact .map (hread es es' hes)

end Coupled

end Command

/-! ## Vocabularies -/

namespace Vocabulary

theorem bindFirst_coupled {c c' : Command} {others others' : List Command} {es es' : List Expr}
    (hc : Command.Coupled K E R c c')
    (hothers : List.Forall₂ (Command.Coupled K E R) others others') (hes : List.Forall₂ E es es') :
    (bindFirst es c others).Coupled K
      (K.Ends fun x y => (x.1.body x.2).Coupled K R (y.1.body y.2))
      (bindFirst es' c' others') := by
  induction hothers generalizing c c' with
  | nil =>
    rw [bindFirst, bindFirst]
    refine (hc.bind es es' hes).attempt.bind fun r r' hr => ?_
    cases hr with
    | ok h => exact .pure (.ok h)
    | error h => exact .pure (.error h)
  | cons hc₁ _ ih =>
    rw [bindFirst, bindFirst]
    refine (hc.bind es es' hes).attempt.bind fun r r' hr => ?_
    cases hr with
    | ok h => exact .pure (.ok h)
    | error _ => exact ih hc₁

theorem map_signature_eq {cs cs' : List Command}
    (h : List.Forall₂ (Command.Coupled K E R) cs cs') :
    cs.map Command.signature = cs'.map Command.signature := by
  induction h with
  | nil => rfl
  | cons hc _ ih => rw [List.map_cons, List.map_cons, hc.signature_eq, ih]

/-- Vocabularies whose overloads of a name are coupled evaluate alike what has that name for its
head and related operands. -/
theorem evaluate_coupled {v v' : Vocabulary} (hname : v.name = v'.name) {e e' : Expr}
    {name : String} {es es' : List Expr} (he : split? e = some (name, es))
    (he' : split? e' = some (name, es')) (hes : List.Forall₂ E es es')
    (hover : List.Forall₂ (Command.Coupled K E R) (v.overloads name) (v'.overloads name))
    (hreject : ∀ signatures f f', K.failures f f' →
      K.failures (.rejected v.name name e signatures f) (.rejected v.name name e' signatures f')) :
    (v.evaluate e).Coupled K R (v'.evaluate e') := by
  have hsignatures := map_signature_eq hover
  simp only [evaluate, he, he', ← hname]
  generalize v.overloads name = cs, v'.overloads name = cs' at hover hsignatures
  cases hover with
  | nil => exact .fail (K.failures_refl _)
  | cons hc hothers =>
    refine (bindFirst_coupled hc hothers hes).bind fun r r' hr => ?_
    cases hr with
    | ok h => exact h
    | error h =>
      rw [hsignatures]
      exact .fail (hreject _ _ _ h)

end Vocabulary

end Scenario
