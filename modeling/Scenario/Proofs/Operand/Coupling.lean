import Scenario.Proofs.Action.Coupling
import Scenario.Proofs.Entries
import Scenario.Proofs.Operand

/-!
# Readings that go alike

A reading goes alike in two runs if the evaluation that it falls back to does, and if the worlds
agree in what the reading looks up there: the address book for an address (`address_coupled`),
the fixed-point scale for a scaled number (`scaled_coupled`, `percent_coupled`), nothing for the
others.
-/

namespace Scenario.Operand

variable {K : Comparison} {core core' : Reading} {e e' : Expr}

section readAs

variable {R : Value → Value → Prop} (hR : ∀ v v', R v v' → v = v')
include hR

theorem expect_coupled {kind : Kind} {v v' : Value} (hv : R v v')
    (hf : K.failures (.kindMismatch kind (.expr e) (.value v))
      (.kindMismatch kind (.expr e') (.value v))) :
    (expect kind e v).Coupled K R (expect kind e' v') := by
  obtain rfl := hR v v' hv
  rw [expect, expect]
  split
  · exact .pure hv
  · exact .fail hf

theorem readAs_coupled {kind : Kind} {literal : Literal} {evaluate evaluate' : Reading}
    (hliteral : ∀ w w', K.worlds w w' → ∀ s, e = .atom s →
      K.Ends R (literal w s) (literal w' s))
    (h : (evaluate e).Coupled K R (evaluate' e)) :
    (readAs kind literal evaluate e).Coupled K R (readAs kind literal evaluate' e) := by
  cases e with
  | list es =>
    exact h.bind fun v v' hv => expect_coupled hR hv (K.failures_refl _)
  | atom s =>
    refine .world_bind fun w w' hw => ?_
    have hends := hliteral w w' hw s rfl
    generalize literal w s = r, literal w' s = r' at hends
    cases hends with
    | ok hv => exact .pure hv
    | error hf =>
      refine h.attempt.bind fun r r' hr => ?_
      cases hr with
      | ok hv => exact expect_coupled hR hv (K.failures_refl _)
      | error _ => exact .fail hf

end readAs

theorem number_coupled (h : (core e).Coupled K Eq (core' e)) :
    (number core e).Coupled K Eq (number core' e) :=
  readAs_coupled (fun _ _ hv => hv) (fun _ _ _ _ _ => .refl K _) h

theorem text_coupled (h : (core e).Coupled K Eq (core' e)) :
    (text core e).Coupled K Eq (text core' e) :=
  readAs_coupled (fun _ _ hv => hv) (fun _ _ _ _ _ => .refl K _) h

theorem address_coupled (haddresses : ∀ w w', K.worlds w w' → w.addresses = w'.addresses)
    (h : (core e).Coupled K Eq (core' e)) :
    (address core e).Coupled K Eq (address core' e) := by
  refine readAs_coupled (fun _ _ hv => hv) (fun w w' hw s _ => ?_)
    (.map (h.mono fun v v' hv => by rw [hv]))
  simp only [addressLiteral, World.resolve?, haddresses w w' hw]
  exact .refl K _

theorem content_ends (v : Value)
    (hf : K.failures (.kindMismatch .number (.expr e) (.value v))
      (.kindMismatch .number (.expr e') (.value v))) :
    K.Ends Eq (content e v) (content e' v) := by
  rw [content, content]
  split
  · exact .ok rfl
  · exact .error hf

section scaledNumbers

variable (h : (number core e).Coupled K Eq (number core' e'))
variable (hf : ∀ v, K.failures (.kindMismatch .number (.expr e) (.value v))
  (.kindMismatch .number (.expr e') (.value v)))
variable (hmantissa : ∀ w w', K.worlds w w' → w.mantissaDecimals = w'.mantissaDecimals)
include h hf hmantissa

theorem scaledNumber_coupled :
    (scaledNumber core e).Coupled K Eq (scaledNumber core' e') := by
  refine h.bind ?_
  rintro v _ rfl
  refine (Action.Coupled.ofExcept (content_ends v (hf v))).bind ?_
  rintro n _ rfl
  refine .world_bind fun w w' hw => ?_
  rw [hmantissa w w' hw]
  exact .pure rfl

theorem scaled_coupled : (scaled core e).Coupled K Eq (scaled core' e') :=
  .map ((scaledNumber_coupled h hf hmantissa).mono fun _ _ hn => by rw [hn])

theorem percent_coupled : (percent core e).Coupled K Eq (percent core' e') :=
  .map ((scaledNumber_coupled h hf hmantissa).mono fun _ _ hn => by rw [hn])

end scaledNumbers

section pairs

variable {P : Value → Prop} {D : Expr → Prop} (htext : ∀ s, D (.atom s) → P (.text s))
variable (h : ∀ x, D x → (core x).Coupled K (fun v v' => v = v' ∧ P v) (core' x))
include htext h

theorem pairValue_coupled {e : Expr} (he : D e) :
    (pairValue core e).Coupled K (fun v v' => v = v' ∧ P v) (pairValue core' e) := by
  cases e with
  | atom s => exact .pure ⟨rfl, htext s he⟩
  | list es => exact h _ he

theorem readPairs_coupled (hD : ∀ es, D (.list es) → ∀ x ∈ es, D x) (whole : Expr)
    {pairs : List Expr} (hpairs : ∀ x ∈ pairs, D x) {entries : Entries Value}
    (hentries : ∀ x ∈ entries, P x.2) :
    (readPairs core whole pairs entries).Coupled K (fun r r' => r = r' ∧ ∀ x ∈ r, P x.2)
      (readPairs core' whole pairs entries) := by
  fun_induction readPairs core whole pairs entries with
  | case1 => exact .pure ⟨rfl, hentries⟩
  | case2 key value pairs entries ih =>
    rw [List.forall_mem_cons] at hpairs
    have hvalue : D value := hD _ hpairs.1 value (.tail _ (.head _))
    rw [readPairs]
    refine (pairValue_coupled htext h hvalue).bind ?_
    rintro v _ ⟨rfl, hv⟩
    refine ih v hpairs.2 fun x hx => ?_
    rcases Entries.mem_put hx with rfl | hx
    · exact hv
    · exact hentries x hx
  | case3 pair pairs entries hpair =>
    rw [readPairs]
    · exact .fail (K.failures_refl _)
    · exact hpair

end pairs

theorem map_coupled {D : Expr → Prop} (hD : ∀ es, D (.list es) → ∀ x ∈ es, D x)
    (h : ∀ x, D x → (core x).Coupled K Eq (core' x)) {es : List Expr} (hes : ∀ x ∈ es, D x) :
    (map core (.list es)).Coupled K Eq (map core' (.list es)) := by
  have hcore (x : Expr) (hx : D x) :
      (core x).Coupled K (fun v v' => v = v' ∧ True) (core' x) :=
    (h x hx).mono fun _ _ hv => ⟨hv, trivial⟩
  refine .map ((readPairs_coupled (fun _ _ => trivial) hcore hD _ hes (by simp)).mono ?_)
  rintro r _ ⟨rfl, -⟩
  rfl

end Scenario.Operand
