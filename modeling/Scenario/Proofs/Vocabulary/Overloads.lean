import Scenario.Proofs.Command.Binding

/-!
# Overloads

Overloads are tried in the order of the table, each in the world that the one before it left.
`Rejections` is a row of commands that all turn the operands down, `Selects` a row of which one
takes them; a row is one or the other (`selects_or_rejections`), and the evaluation of an
expression follows it (`evaluate_of_selects`, `evaluate_of_rejections`).

A command that does not fit the number of operands turns them down without reading any, so
leaving it out of the row changes nothing that is left of the run (`selects_filter_iff`,
`exists_rejections_filter_iff`).
-/

namespace Scenario.Vocabulary

/-- Commands that turn down the operands one after the other, from the world `w` to the world
`w'`, with a failure for each. -/
inductive Rejections (operands : List Expr) :
    List Command → World → List Failure → World → Prop where
  | nil (w : World) : Rejections operands [] w [] w
  | cons {c : Command} {cs : List Command} {w w₁ w' : World} {f : Failure} {fs : List Failure}
      (h : c.bind operands w = (.error f, w₁)) (hs : Rejections operands cs w₁ fs w') :
      Rejections operands (c :: cs) w (f :: fs) w'

/-- Commands of which `c` takes the operands, in the world that the commands before it leave when
they have turned them down. -/
def Selects (operands : List Expr) (cs : List Command) (w : World) (c : Command)
    (args : Arguments) (w' : World) : Prop :=
  ∃ before after fs w₁, cs = before ++ c :: after ∧ Rejections operands before w fs w₁ ∧
    c.bind operands w₁ = (.ok args, w')

variable {operands : List Expr} {cs : List Command} {c c' : Command} {args args' : Arguments}
variable {w w₁ w' : World} {f : Failure} {fs : List Failure}

/-! ## One overload after the other -/

theorem not_selects_nil : ¬Selects operands [] w c args w' := by
  rintro ⟨before, after, _, _, h, -⟩
  simp at h

theorem selects_cons_iff_of_ok (h : c.bind operands w = (.ok args, w₁)) :
    Selects operands (c :: cs) w c' args' w' ↔ c' = c ∧ args' = args ∧ w' = w₁ := by
  constructor
  · rintro ⟨before, after, fs, w₂, heq, hs, hok⟩
    cases hs with
    | nil =>
      obtain ⟨rfl, -⟩ := List.cons.inj heq
      rw [h] at hok
      cases hok
      exact ⟨rfl, rfl, rfl⟩
    | cons hc _ =>
      obtain ⟨rfl, -⟩ := List.cons.inj heq
      rw [h] at hc
      cases hc
  · rintro ⟨rfl, rfl, rfl⟩
    exact ⟨[], cs, [], w, rfl, .nil w, h⟩

theorem selects_cons_iff_of_error (h : c.bind operands w = (.error f, w₁)) :
    Selects operands (c :: cs) w c' args w' ↔ Selects operands cs w₁ c' args w' := by
  constructor
  · rintro ⟨before, after, fs, w₂, heq, hs, hok⟩
    cases hs with
    | nil =>
      obtain ⟨rfl, -⟩ := List.cons.inj heq
      rw [h] at hok
      cases hok
    | cons hc hs =>
      obtain ⟨rfl, rfl⟩ := List.cons.inj heq
      rw [h] at hc
      cases hc
      exact ⟨_, after, _, w₂, rfl, hs, hok⟩
  · rintro ⟨before, after, fs, w₂, rfl, hs, hok⟩
    exact ⟨c :: before, after, f :: fs, w₂, rfl, .cons h hs, hok⟩

theorem not_rejections_cons_of_ok (h : c.bind operands w = (.ok args, w₁)) :
    ¬Rejections operands (c :: cs) w fs w' := by
  intro hs
  cases hs with
  | cons hc _ =>
    rw [h] at hc
    cases hc

theorem exists_rejections_cons_iff_of_error (h : c.bind operands w = (.error f, w₁)) :
    (∃ fs, Rejections operands (c :: cs) w fs w') ↔ ∃ fs, Rejections operands cs w₁ fs w' := by
  constructor
  · rintro ⟨_, hs⟩
    cases hs with
    | cons hc hs =>
      rw [h] at hc
      cases hc
      exact ⟨_, hs⟩
  · rintro ⟨fs, hs⟩
    exact ⟨f :: fs, .cons h hs⟩

/-- Either some command of a row takes the operands or all turn them down. -/
theorem selects_or_rejections (operands : List Expr) (cs : List Command) (w : World) :
    (∃ c args w', Selects operands cs w c args w') ∨ ∃ fs w', Rejections operands cs w fs w' := by
  induction cs generalizing w with
  | nil => exact .inr ⟨[], w, .nil w⟩
  | cons c cs ih =>
    rcases h : c.bind operands w with ⟨f | args, w₁⟩
    · rcases ih w₁ with ⟨c', args, w', hsel⟩ | ⟨fs, w', hrej⟩
      · exact .inl ⟨c', args, w', (selects_cons_iff_of_error h).mpr hsel⟩
      · exact .inr ⟨f :: fs, w', .cons h hrej⟩
    · exact .inl ⟨c, args, w₁, (selects_cons_iff_of_ok h).mpr ⟨rfl, rfl, rfl⟩⟩

theorem Selects.not_rejections (h : Selects operands cs w c args w') :
    ¬Rejections operands cs w fs w₁ := by
  intro hrej
  induction hrej with
  | nil => exact not_selects_nil h
  | cons hc _ ih => exact ih ((selects_cons_iff_of_error hc).mp h)

/-! ## Evaluation -/

theorem bindFirst_of_ok {others : List Command} (h : c.bind operands w = (.ok args, w')) :
    bindFirst operands c others w = (.ok (.ok (c, args)), w') := by
  rw [bindFirst.eq_def, Action.bind_apply, Action.attempt, h]
  rfl

theorem bindFirst_nil_of_error (h : c.bind operands w = (.error f, w')) :
    bindFirst operands c [] w = (.ok (.error f), w') := by
  rw [bindFirst, Action.bind_apply, Action.attempt, h]
  rfl

theorem bindFirst_cons_of_error {others : List Command}
    (h : c.bind operands w = (.error f, w')) :
    bindFirst operands c (c' :: others) w = bindFirst operands c' others w' := by
  rw [bindFirst, Action.bind_apply, Action.attempt, h]

theorem bindFirst_of_selects {others : List Command} {chosen : Command}
    (h : Selects operands (c :: others) w chosen args w') :
    bindFirst operands c others w = (.ok (.ok (chosen, args)), w') := by
  induction others generalizing c w with
  | nil =>
    rcases hc : c.bind operands w with ⟨f | args', w₁⟩
    · exact absurd ((selects_cons_iff_of_error hc).mp h) not_selects_nil
    · obtain ⟨rfl, rfl, rfl⟩ := (selects_cons_iff_of_ok hc).mp h
      exact bindFirst_of_ok hc
  | cons c' others ih =>
    rcases hc : c.bind operands w with ⟨f | args', w₁⟩
    · rw [bindFirst_cons_of_error hc]
      exact ih ((selects_cons_iff_of_error hc).mp h)
    · obtain ⟨rfl, rfl, rfl⟩ := (selects_cons_iff_of_ok hc).mp h
      exact bindFirst_of_ok hc

theorem bindFirst_of_rejections {others : List Command}
    (h : Rejections operands (c :: others) w fs w') :
    ∃ f, fs.getLast? = some f ∧ bindFirst operands c others w = (.ok (.error f), w') := by
  induction others generalizing c w fs with
  | nil =>
    cases h with
    | cons hc hs =>
      cases hs
      exact ⟨_, rfl, bindFirst_nil_of_error hc⟩
  | cons c' others ih =>
    cases h with
    | cons hc hs =>
      obtain ⟨f, hlast, heq⟩ := ih hs
      refine ⟨f, ?_, ?_⟩
      · rw [List.getLast?_cons, hlast]
        rfl
      · rw [bindFirst_cons_of_error hc, heq]

variable {v : Vocabulary} {e : Expr} {name : String}

theorem evaluate_of_selects (he : split? e = some (name, operands))
    (h : Selects operands (v.overloads name) w c args w') :
    v.evaluate e w = c.body args w' := by
  cases hover : v.overloads name with
  | nil =>
    rw [hover] at h
    exact absurd h not_selects_nil
  | cons c₀ others =>
    rw [hover] at h
    simp only [evaluate, he, hover, Action.bind_apply, bindFirst_of_selects h]

theorem evaluate_of_rejections (he : split? e = some (name, operands))
    (hover : v.overloads name ≠ []) (h : Rejections operands (v.overloads name) w fs w') :
    ∃ f, fs.getLast? = some f ∧
      v.evaluate e w =
        (.error (.rejected v.name name e ((v.overloads name).map Command.signature) f), w') := by
  obtain ⟨c₀, others, heq⟩ := List.exists_cons_of_ne_nil hover
  rw [heq] at h ⊢
  obtain ⟨f, hlast, hbind⟩ := bindFirst_of_rejections h
  refine ⟨f, hlast, ?_⟩
  simp only [evaluate, he, heq, Action.bind_apply, hbind]
  rfl

/-! Of a name with one command only, that command decides. -/

theorem evaluate_of_bind_ok (he : split? e = some (name, operands))
    (hover : v.overloads name = [c]) (hc : c.bind operands w = (.ok args, w')) :
    v.evaluate e w = c.body args w' :=
  evaluate_of_selects he ⟨[], [], [], w, hover, .nil w, hc⟩

theorem evaluate_of_bind_error (he : split? e = some (name, operands))
    (hover : v.overloads name = [c]) (hc : c.bind operands w = (.error f, w')) :
    v.evaluate e w = (.error (.rejected v.name name e [c.signature] f), w') := by
  have hrej : Rejections operands (v.overloads name) w [f] w' := hover ▸ .cons hc (.nil w')
  obtain ⟨f', hlast, heq⟩ := evaluate_of_rejections he (by simp [hover]) hrej
  cases hlast
  rw [heq, hover]
  rfl

/-- Names that differ in more than the case of their letters have one command each. -/
theorem length_overloads_le_one (h : (v.commands.map (Text.fold ·.name)).Nodup) (name : String) :
    (v.overloads name).length ≤ 1 := by
  have hcount := List.nodup_iff_count_le_one.mp h (Text.fold name)
  rw [List.count, List.countP_map] at hcount
  rw [overloads, ← List.countP_eq_length_filter]
  exact hcount

theorem overloads_eq_singleton (h : (v.commands.map (Text.fold ·.name)).Nodup)
    (hc : c ∈ v.commands) (hnamed : c.isNamed name = true) : v.overloads name = [c] := by
  have hmem : c ∈ v.overloads name := List.mem_filter.mpr ⟨hc, hnamed⟩
  obtain ⟨c₀, hover⟩ := List.length_eq_one_iff.mp
    (Nat.le_antisymm (length_overloads_le_one h name) (List.length_pos_of_mem hmem))
  rw [hover, List.mem_singleton] at hmem
  rw [hover, hmem]

/-! ## Commands that do not fit -/

/-- The vocabulary with some of its commands only. -/
def restrict (v : Vocabulary) (keep : Command → Bool) : Vocabulary :=
  ⟨v.name, v.commands.filter keep, fun c hc => v.faultless c (List.mem_filter.mp hc).1⟩

theorem overloads_restrict (v : Vocabulary) (keep : Command → Bool) (name : String) :
    (v.restrict keep).overloads name = (v.overloads name).filter keep := by
  rw [overloads, restrict, overloads, List.filter_comm]

theorem bind_apply_of_not_fits (hfit : c.arity.fits operands.length = false) (w : World) :
    c.bind operands w = (.error (.arity c.arity operands.length), w) := by
  rw [Command.bind_of_not_fits hfit]
  rfl

variable {keep : Command → Bool}

theorem selects_filter_iff
    (hkeep : ∀ c ∈ cs, c.arity.fits operands.length = true → keep c = true) :
    Selects operands (cs.filter keep) w c args w' ↔ Selects operands cs w c args w' := by
  induction cs generalizing w with
  | nil => rfl
  | cons c₀ cs ih =>
    rw [List.forall_mem_cons] at hkeep
    cases hc : keep c₀ with
    | true =>
      rw [List.filter_cons_of_pos hc]
      rcases h : c₀.bind operands w with ⟨f | args₀, w₁⟩
      · rw [selects_cons_iff_of_error h, selects_cons_iff_of_error h, ih hkeep.2]
      · rw [selects_cons_iff_of_ok h, selects_cons_iff_of_ok h]
    | false =>
      have hfit : c₀.arity.fits operands.length = false := by simpa [hc] using hkeep.1
      rw [List.filter_cons_of_neg (by simp [hc]), ih hkeep.2,
        selects_cons_iff_of_error (bind_apply_of_not_fits hfit w)]

theorem exists_rejections_filter_iff
    (hkeep : ∀ c ∈ cs, c.arity.fits operands.length = true → keep c = true) :
    (∃ fs, Rejections operands (cs.filter keep) w fs w') ↔
      ∃ fs, Rejections operands cs w fs w' := by
  induction cs generalizing w with
  | nil => rfl
  | cons c₀ cs ih =>
    rw [List.forall_mem_cons] at hkeep
    cases hc : keep c₀ with
    | true =>
      rw [List.filter_cons_of_pos hc]
      rcases h : c₀.bind operands w with ⟨f | args₀, w₁⟩
      · rw [exists_rejections_cons_iff_of_error h, exists_rejections_cons_iff_of_error h,
          ih hkeep.2]
      · simp [not_rejections_cons_of_ok h]
    | false =>
      have hfit : c₀.arity.fits operands.length = false := by simpa [hc] using hkeep.1
      rw [List.filter_cons_of_neg (by simp [hc]), ih hkeep.2,
        exists_rejections_cons_iff_of_error (bind_apply_of_not_fits hfit w)]

/-- Where no command takes the operands, the world is left as the rejections leave it, be there
any or not. -/
theorem evaluate_world_of_rejections (he : split? e = some (name, operands))
    (h : Rejections operands (v.overloads name) w fs w') : (v.evaluate e w).2 = w' := by
  by_cases hover : v.overloads name = []
  · rw [hover] at h
    cases h
    simp only [evaluate, he, hover]
    rfl
  · obtain ⟨f, -, heq⟩ := evaluate_of_rejections he hover h
    rw [heq]

/-! ## Resolution -/

/-- What becomes of an expression whose head names some commands of a vocabulary. -/
structure Resolves (v : Vocabulary) (e : Expr) (name : String) (operands : List Expr)
    (w : World) : Prop where
  /-- Some overload takes the operands or all turn them down, one of the two. -/
  selects_or_rejections : (∃ c args w', Selects operands (v.overloads name) w c args w') ∨
    ∃ fs w', Rejections operands (v.overloads name) w fs w'
  not_both : ∀ c args w' fs w'', Selects operands (v.overloads name) w c args w' →
    ¬Rejections operands (v.overloads name) w fs w''
  /-- The first overload that takes the operands runs, and it has the last word. -/
  selected : ∀ before c after fs w₁ args w₂, v.overloads name = before ++ c :: after →
    Rejections operands before w fs w₁ → c.bind operands w₁ = (.ok args, w₂) →
      v.evaluate e w = c.body args w₂
  /-- Overloads after it have no part in the run: with any others in their place, or none, it is
  the same. -/
  later : ∀ before c after fs w₁ args w₂, v.overloads name = before ++ c :: after →
    Rejections operands before w fs w₁ → c.bind operands w₁ = (.ok args, w₂) →
      ∀ (v' : Vocabulary) (after' : List Command), v'.overloads name = before ++ c :: after' →
        v'.evaluate e w = v.evaluate e w
  rejected : ∀ fs w', Rejections operands (v.overloads name) w fs w' →
    ∃ f, fs.getLast? = some f ∧
      v.evaluate e w =
        (.error (.rejected v.name name e ((v.overloads name).map Command.signature) f), w')
  /-- A command that does not fit the number of operands reads none of them. -/
  unfitting : ∀ c : Command, c.arity.fits operands.length = false →
    ∀ w₁, c.bind operands w₁ = (.error (.arity c.arity operands.length), w₁)
  /-- Without commands that do not fit or go by another name, the same overload runs, to the same
  end. -/
  restricted : ∀ keep : Command → Bool,
    (∀ c ∈ v.commands, c.isNamed name = true → c.arity.fits operands.length = true →
      keep c = true) →
    (∀ c args w', Selects operands ((v.restrict keep).overloads name) w c args w' ↔
      Selects operands (v.overloads name) w c args w') ∧
    (∀ c args w', Selects operands (v.overloads name) w c args w' →
      (v.restrict keep).evaluate e w = v.evaluate e w) ∧
    ((v.restrict keep).evaluate e w).2 = (v.evaluate e w).2

theorem restrict_selects_iff
    (hkeep : ∀ c ∈ v.commands, c.isNamed name = true → c.arity.fits operands.length = true →
      keep c = true) :
    Selects operands ((v.restrict keep).overloads name) w c args w' ↔
      Selects operands (v.overloads name) w c args w' := by
  rw [overloads_restrict]
  refine selects_filter_iff fun c hc => ?_
  obtain ⟨hmem, hnamed⟩ := List.mem_filter.mp hc
  exact hkeep c hmem hnamed

theorem restrict_evaluate_world (he : split? e = some (name, operands))
    (hkeep : ∀ c ∈ v.commands, c.isNamed name = true → c.arity.fits operands.length = true →
      keep c = true) :
    ((v.restrict keep).evaluate e w).2 = (v.evaluate e w).2 := by
  rcases Vocabulary.selects_or_rejections operands (v.overloads name) w with
    ⟨c, args, w', hsel⟩ | ⟨fs, w', hrej⟩
  · rw [evaluate_of_selects he hsel, evaluate_of_selects he ((restrict_selects_iff hkeep).mpr hsel)]
  · have hfit : ∀ c ∈ v.overloads name, c.arity.fits operands.length = true → keep c = true := by
      intro c hc
      obtain ⟨hmem, hnamed⟩ := List.mem_filter.mp hc
      exact hkeep c hmem hnamed
    obtain ⟨fs', hrej'⟩ := (exists_rejections_filter_iff hfit).mpr ⟨fs, hrej⟩
    rw [← overloads_restrict] at hrej'
    rw [evaluate_world_of_rejections he hrej, evaluate_world_of_rejections he hrej']

/-- Overloads are tried in the order of the table, in the world that those before have left; the
first that takes the operands runs and decides, and if none does, the last one's failure is the
cause of theirs. -/
theorem evaluate_resolves (he : split? e = some (name, operands)) (hover : v.overloads name ≠ [])
    (w : World) : v.Resolves e name operands w where
  selects_or_rejections := Vocabulary.selects_or_rejections operands _ w
  not_both _ _ _ _ _ hsel := hsel.not_rejections
  selected before c after fs w₁ args w₂ heq hs hok :=
    evaluate_of_selects he ⟨before, after, fs, w₁, heq, hs, hok⟩
  later before c after fs w₁ args w₂ heq hs hok v' after' heq' := by
    rw [evaluate_of_selects he ⟨before, after, fs, w₁, heq, hs, hok⟩,
      evaluate_of_selects he ⟨before, after', fs, w₁, heq', hs, hok⟩]
  rejected fs w' hrej := evaluate_of_rejections he hover hrej
  unfitting c hfit := bind_apply_of_not_fits hfit
  restricted keep hkeep := by
    refine ⟨fun c args w' => restrict_selects_iff hkeep, fun c args w' hsel => ?_,
      restrict_evaluate_world he hkeep⟩
    rw [evaluate_of_selects he hsel, evaluate_of_selects he ((restrict_selects_iff hkeep).mpr hsel)]

/-- Of four overloads the first does not fit, the second puts a contract on record before it
turns the operands down, the third takes them and finds that contract, and the fourth is not
tried. -/
theorem evaluate_resolves_deploy :
    let echo : Reading := fun e => pure (.text e.text)
    let record : Reading := fun e => do
      Action.modify (·.recordContract e.text)
      .fail (.precondition .lastInvocation)
    let seen : Arguments → Action Value := fun _ => do
      return .address ((← Action.world).lastContract.getD "")
    let one : Command := {
      name := "Deploy", params := [{ name := "x", reading := record }], body := seen }
    let recording : Command := {
      name := "deploy", body := seen,
      params := [{ name := "x", reading := echo }, { name := "y", reading := record }] }
    let plain : Command := {
      name := "DEPLOY", body := seen,
      params := [{ name := "x", reading := echo }, { name := "y", reading := echo }] }
    let e : Expr := .list [.atom "Deploy", .atom "a", .atom "b"]
    let w := World.offline "test"
    ∃ v, build "Token" [one, recording, plain, recording] = .ok v ∧
      v.evaluate e w = (.ok (.address "b"), w.recordContract "b") ∧
      (v.restrict (·.arity.fits 2)).evaluate e w = v.evaluate e w := by
  intro echo record seen one recording plain e w
  have hfault : fault? "Token" [one, recording, plain, recording] = none := by decide
  let v : Vocabulary := ⟨"Token", [one, recording, plain, recording], faultless_of_fault? hfault⟩
  have hnamed : [one, recording, plain, recording].all (·.isNamed "Deploy") = true := by decide
  have hover : v.overloads "Deploy" = [one, recording] ++ plain :: [recording] :=
    List.filter_eq_self.mpr (List.all_eq_true.mp hnamed)
  have hrej : Rejections [.atom "a", .atom "b"] [one, recording] w
      [.arity ⟨1, some 1⟩ 2, .precondition .lastInvocation] (w.recordContract "b") :=
    .cons rfl (.cons rfl (.nil _))
  obtain ⟨args, hok⟩ : ∃ args, plain.bind [.atom "a", .atom "b"] (w.recordContract "b") =
      (.ok args, w.recordContract "b") := ⟨_, rfl⟩
  have h : v.Resolves e "Deploy" [.atom "a", .atom "b"] w :=
    evaluate_resolves rfl (by simp [hover]) w
  refine ⟨v, build_of_fault? hfault, h.selected _ _ _ _ _ _ _ hover hrej hok, ?_⟩
  exact (h.restricted _ fun c _ _ hfit => hfit).2.1 _ _ _ ⟨_, _, _, _, hover, hrej, hok⟩

end Scenario.Vocabulary
